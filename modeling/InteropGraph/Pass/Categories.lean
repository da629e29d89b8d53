import InteropGraph.Pass.Draft

/-!
# Categories

`Draft.foldCategories` moves the members of each category into the interface that it extends, and
takes the category off the list.
-/

namespace InteropGraph

/-- The members of a category, and the interface that it extends. -/
def Entity.category? (e : Entity) : Option (Members × EntityId) :=
  match e.detail with
  | .category m extended => some (m, extended)
  | _ => none

/-- `ids` followed by those of `others` that it lacks, each once. -/
def appendNew (ids others : List EntityId) : List EntityId :=
  others.foldl (fun ids id => if id ∈ ids then ids else ids ++ [id]) ids

/-- The members of both; protocols are listed once. -/
def Members.append (m additions : Members) : Members where
  instanceMethods := m.instanceMethods ++ additions.instanceMethods
  staticMethods := m.staticMethods ++ additions.staticMethods
  instanceProperties := m.instanceProperties ++ additions.instanceProperties
  staticProperties := m.staticProperties ++ additions.staticProperties
  protocols := appendNew m.protocols additions.protocols

namespace Draft

/-- What the entity at a place lists and extends, if it is a category. -/
def category? (d : Draft) (id : EntityId) : Option (Members × EntityId) :=
  (d.graph.entity? id).bind Entity.category?

/-- Moves the members of a category into the interface that it extends. -/
def foldCategory (d : Draft) (id : EntityId) : Draft :=
  match d.category? id with
  | none => d
  | some (additions, extended) =>
    match d.graph.members? extended with
    | none => d
    | some m =>
      { d with
        graph := d.graph.mapMembers extended fun _ => d.graph.sortMembers (m.append additions)
        report := { d.report with mergedCategories := d.report.mergedCategories + 1 } }

/-- Moves the members of the listed categories into the interfaces that they extend; only the other
entities stay listed. -/
def foldCategories (d : Draft) : Draft :=
  { d.forListed foldCategory with
    listed := d.listed.filter fun id => (d.category? id).isNone }

end Draft

end InteropGraph
