import InteropGraph.Entity.Json
import InteropGraph.Graph.Reach

/-!
# Graphs by module

`Modules` lists entities by top-level module, in the order of module names. `Graph.dump` is what a
graph shows of itself: everything that can be reached from the listed entities.
-/

namespace InteropGraph

/-- Entities by module. Every module has one entry, and the entries are in the order of names. -/
abbrev Modules := List (String × List EntityId)

namespace Modules

/-- The entries of a table in the order of module names. -/
def ofList (entries : List (String × List EntityId)) : Modules :=
  entries.mergeSort fun a b => a.1 ≤ b.1

/-- Lists entities, each under the module that `moduleOf` gives; entities without a module are left
out. -/
def partition (moduleOf : EntityId → Option String) (ids : List EntityId) : Modules :=
  ofList ((ids.filterMap moduleOf).eraseDups.map fun m =>
    (m, ids.filter fun id => moduleOf id = some m))

/-- All listed entities. -/
def ids (modules : Modules) : List EntityId :=
  modules.flatMap Prod.snd

end Modules

namespace Graph

/-- The entities listed under a module that exist. -/
def moduleEntities (g : Graph) (modules : Modules) (module : String) :
    List (EntityId × Entity) :=
  ((modules.lookup module).getD []).filterMap fun id => (g.entity? id).map fun e => (id, e)

/-- The first entity of a module with the given bridge name. -/
def find? (g : Graph) (modules : Modules) (module bridgeName : String) :
    Option (EntityId × Entity) :=
  (g.moduleEntities modules module).find? fun e => e.2.bridgeName = bridgeName

/-- Two entities of one module with the same bridge name. -/
structure Clash where
  module : String
  name : String
  first : EntityId
  second : EntityId
deriving DecidableEq, Repr

/-- What is said of two entities with one name. -/
def Clash.message (c : Clash) : String :=
  s!"Module {c.module} has duplicate bridge name '{c.name}' " ++
    s!"(entities {c.first.index} and {c.second.index})"

/-- The first entity of `ids` whose name has come up before, with the entity that had it last. -/
def repeatedName? (g : Graph) (module : String) (seen : List (String × EntityId)) :
    List EntityId → Option Clash
  | [] => none
  | id :: ids =>
    match seen.lookup (g.bridgeName id) with
    | some previous => some ⟨module, g.bridgeName id, previous, id⟩
    | none => repeatedName? g module ((g.bridgeName id, id) :: seen) ids

/-- The first clash of bridge names in the modules, in their order. -/
def clash? (g : Graph) (modules : Modules) : Option Clash :=
  modules.findSome? fun (module, ids) => g.repeatedName? module [] ids

/-- What a graph shows of itself. -/
structure Dump where
  modules : Modules
  entities : List (EntityId × Entity)
  types : List (TypeId × BridgeType)

/-- The listed entities and everything that can be reached from them, in the order of places. -/
def dump (g : Graph) (modules : Modules) : Dump :=
  let seen := g.reachable modules.ids
  { modules
    entities := g.entities.filter fun e => .entity e.1 ∈ seen
    types := (List.range g.types.size).filterMap fun i =>
      if .type ⟨i⟩ ∈ seen then (g.type? ⟨i⟩).map fun t => (⟨i⟩, t) else none }

/-- Modules with the indices of their entities. -/
def modulesToJson (modules : Modules) : Json :=
  .object (modules.map fun (m, ids) => (m, .ofList EntityId.toJson ids))

/-- A dump in three parts: modules, entities by index and types by index. -/
def Dump.toJson (d : Dump) : Json :=
  .object [("modules", modulesToJson d.modules),
    ("entities", .object (d.entities.map fun (id, e) => (toString id.index, e.toJson))),
    ("types", .object (d.types.map fun (t, type) => (toString t.index, type.toJson)))]

end Graph

end InteropGraph
