import InteropGraph.Pass.Draft

/-!
# Clashes of names

`Draft.resolveClashes` makes the bridge names of the listed entities distinct within each top-level
module. In a group of entities with the same name, the first of the kind that ranks highest keeps
it. Each other one gets a suffix for its kind and, where that is taken too, a number.
-/

namespace InteropGraph

/-- The rank of a kind; the least one keeps its name. -/
def Kind.rank : Kind → Nat
  | .interface => 0
  | .protocol => 1
  | .function => 2
  | .variable => 3
  | .struct => 4
  | .union => 5
  | .enumeration => 6
  | .enumConstant => 7
  | .category | .method | .property => 8

/-- What is appended to the name of an entity of a kind. -/
def Kind.suffix : Kind → String
  | .interface => "Interface"
  | .protocol => "Protocol"
  | .function => "Function"
  | .variable => "Var"
  | .struct => "Struct"
  | .union => "Union"
  | .enumeration => "Enum"
  | .method => "Method"
  | .enumConstant | .category | .property => "Decl"

/-- The candidate number `n` for a name: the stem itself for 1, and the stem with the number for
all others. -/
def candidateName (stem : String) (n : Nat) : String :=
  if n = 1 then stem else stem ++ toString n

/-- The first candidate that is not taken. One of as many candidates as there are taken names and
one more is free. -/
def freeName (taken : List String) (stem : String) : String :=
  let candidates := (List.range (taken.length + 1)).map fun i => candidateName stem (i + 1)
  (candidates.find? (· ∉ taken)).getD stem

namespace Draft

/-- A name within a top-level module. -/
abbrev ScopedName := String × String

/-- The bridge name of an entity in its top-level module. -/
def scopedName? (g : Graph) (id : EntityId) : Option ScopedName :=
  (g.entity? id).map fun e => (topLevelModule e.module, e.bridgeName)

/-- The listed entities that exist, with their names. -/
def scopedEntities (d : Draft) : List (ScopedName × EntityId) :=
  d.listed.filterMap fun id => (scopedName? d.graph id).map fun name => (name, id)

/-- The rank of the entity at a place. -/
def rankOf (g : Graph) (id : EntityId) : Nat :=
  ((g.kind? id).map Kind.rank).getD 255

/-- The entities that have to give up the given name: all but the first of the highest rank. -/
def losers (d : Draft) (entities : List (ScopedName × EntityId)) (name : ScopedName) :
    List (ScopedName × EntityId) :=
  let group := entities.filter (·.1 = name)
  (group.mergeSort fun a b => rankOf d.graph a.2 ≤ rankOf d.graph b.2).drop 1

/-- Renames one entity of a module, given the names that are taken. -/
def renameLoser (state : Draft × List ScopedName) (loser : ScopedName × EntityId) :
    Draft × List ScopedName :=
  let (d, taken) := state
  let module := loser.1.1
  match d.graph.entity? loser.2 with
  | none => state
  | some e =>
    let name := freeName ((taken.filter (·.1 = module)).map Prod.snd)
      (e.bridgeName ++ e.kind.suffix)
    (d.rename loser.2 name, (module, name) :: taken)

/-- Makes the bridge names of the listed entities distinct within each top-level module. -/
def resolveClashes (d : Draft) : Draft :=
  let entities := d.scopedEntities
  let names := (entities.map Prod.fst).eraseDups
  ((names.flatMap (d.losers entities)).foldl renameLoser (d, names)).1

end Draft

end InteropGraph
