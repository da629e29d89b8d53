import InteropGraph.Source.Json
import InteropGraph.Yaml.Plain

/-!
# Source units as YAML

A unit in YAML has the parts that it has in JSON. Names, modules, platforms and versions are texts
whatever the form of their scalars, so that a version may be written `13.0`, and an empty scalar
stands for an empty list or map of declarations, types, availability entries and attributes.
-/

namespace InteropGraph.Yaml

/-- A scalar as a text. -/
def Node.textJson? (n : Node) : Option Json :=
  n.text?.map .text

/-- A scalar as a text, unless it stands for null. -/
def Node.textOrNullJson? : Node → Option Json
  | .scalar s plain => some (if plain && isNull s then .null else .text s)
  | _ => none

/-- A list whose items `read` reads. -/
def Node.listJson? (read : Node → Option Json) : Node → Option Json
  | .list items => (items.mapM read).map .list
  | n => if n.isEmpty then some (.list []) else none

/-- How a part of a record is read; parts without a reader do not count. -/
abbrev PartReaders := String → Option (Node → Option Json)

/-- A record with the parts that have a reader. -/
def Node.recordJson? (readers : PartReaders) : Node → Option Json
  | .map entries => do
    let members ← entries.mapM fun (k, n) => do
      let key ← k.text?
      match readers key with
      | some read => return some (key, ← read n)
      | none => return none
    return .object (members.filterMap id)
  | n => if n.isEmpty then some (.object []) else none

/-- The reader of one availability entry. -/
def availabilityJson? : Node → Option Json :=
  Node.recordJson? fun
    | "platform" => some Node.textJson?
    | "introduced" | "deprecated" | "obsoleted" => some Node.textOrNullJson?
    | "unavailable" => some Node.toJson?
    | _ => none

/-- The reader of attributes, each of which is read by its form. -/
def attributesJson? : Node → Option Json :=
  Node.recordJson? fun key => if key ∈ Attributes.parts then some Node.toJson? else none

/-- The reader of a declaration; the parts of its kind are read by their form. -/
def declarationJson? : Node → Option Json :=
  Node.recordJson? fun
    | "name" | "module" => some Node.textJson?
    | "runtime_name" => some Node.textOrNullJson?
    | "availability" => some (Node.listJson? availabilityJson?)
    | "attributes" => some attributesJson?
    | _ => some Node.toJson?

/-- The reader of a type. Its kind is a text, everything else is read by its form. -/
def typeJson? : Node → Option Json
  | .map entries => do
    let members ← entries.mapM fun (k, n) => do
      let key ← (← k.toJson?).text?
      return (key, ← if key = "kind" then n.textJson? else n.toJson?)
    return .object members
  | .list (kind :: parts) => do return .list ((← kind.textJson?) :: (← parts.mapM Node.toJson?))
  | _ => none

/-- The reader of a unit. -/
def unitJson? : Node → Option Json :=
  Node.recordJson? fun
    | "decls" => some (Node.listJson? declarationJson?)
    | "types" => some (Node.listJson? typeJson?)
    | _ => none

end InteropGraph.Yaml

namespace InteropGraph

/-- Reads a unit from YAML text. -/
def SourceUnit.ofYaml? (s : String) : Option SourceUnit := do
  SourceUnit.ofJson? (← Yaml.unitJson? (← Yaml.Node.parse? s))

/-- Reads a unit from JSON text. -/
def SourceUnit.ofJsonText? (s : String) : Option SourceUnit := do
  SourceUnit.ofJson? (← Json.parse? s)

end InteropGraph
