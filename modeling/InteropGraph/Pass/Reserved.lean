import InteropGraph.Pass.Draft

/-!
# Reserved names

`Draft.dropReserved` removes the methods that manage memory by hand, which bridges must never show.
`Draft.separateProtocols` renames each protocol that has the same native name as an interface of
its top-level module.
-/

namespace InteropGraph

/-- The selectors of the methods that manage memory by hand. -/
def reservedSelectors : List String :=
  ["retain", "release", "autorelease", "retainCount", "dealloc"]

/-- Whether a place is vacant or holds an entity with a name that is not reserved. -/
def Graph.isPresentable (g : Graph) (id : EntityId) : Bool :=
  (g.entity? id).all fun e => e.name ∉ reservedSelectors

namespace Draft

/-- Removes the reserved methods of one container. -/
def dropReservedFrom (d : Draft) (id : EntityId) : Draft :=
  match d.graph.members? id with
  | none => d
  | some m =>
    d.replaceMembers id m { m with
      instanceMethods := m.instanceMethods.filter d.graph.isPresentable
      staticMethods := m.staticMethods.filter d.graph.isPresentable }

/-- Removes the reserved methods of the listed containers. -/
def dropReserved (d : Draft) : Draft :=
  d.forListed dropReservedFrom

/-- The top-level modules and native names of the listed interfaces. -/
def interfaceNames (d : Draft) : List (String × String) :=
  d.listed.filterMap fun id =>
    match d.graph.entity? id with
    | some e => if e.kind = .interface then some (topLevelModule e.module, e.name) else none
    | none => none

/-- Renames the entity at a place if it is a protocol that shares its name with one of the given
interfaces. -/
def separateProtocol (interfaces : List (String × String)) (d : Draft) (id : EntityId) : Draft :=
  match d.graph.entity? id with
  | some e =>
    if e.kind = .protocol ∧ (topLevelModule e.module, e.name) ∈ interfaces then
      d.rename id (e.name ++ "Protocol")
    else d
  | none => d

/-- Renames the listed protocols that share their names with interfaces. -/
def separateProtocols (d : Draft) : Draft :=
  d.forListed (separateProtocol d.interfaceNames)

/-- Removes reserved methods and tells protocols and interfaces apart. -/
def applyReserved (d : Draft) : Draft :=
  d.dropReserved.separateProtocols

end Draft

end InteropGraph
