import InteropGraph.Entity.Basic
import InteropGraph.Policy
import InteropGraph.Text.Lowercase

/-!
# Graphs

A graph has a slot for every entity and an arena of resolved types. A slot is reserved before the
entity in it is complete, and stays vacant if the entity cannot be made. Nothing is ever removed.
-/

namespace InteropGraph

/-- The entities and the resolved types of a run. -/
structure Graph where
  slots : Array (Option Entity)
  types : Array BridgeType

namespace Graph

/-- A graph without entities and types. -/
def empty : Graph := ⟨#[], #[]⟩

/-- The entity at a place; nothing if the slot is vacant or does not exist. -/
def entity? (g : Graph) (id : EntityId) : Option Entity :=
  g.slots[id.index]?.join

/-- The type at a place of the arena. -/
def type? (g : Graph) (t : TypeId) : Option BridgeType :=
  g.types[t.index]?

/-- Adds a vacant slot. -/
def reserve (g : Graph) : EntityId × Graph :=
  (⟨g.slots.size⟩, { g with slots := g.slots.push none })

/-- Puts an entity into a slot; nothing happens if there is no such slot. -/
def fill (g : Graph) (id : EntityId) (e : Entity) : Graph :=
  { g with slots := g.slots.setIfInBounds id.index (some e) }

/-- Adds an entity in a slot of its own. -/
def insert (g : Graph) (e : Entity) : EntityId × Graph :=
  (⟨g.slots.size⟩, { g with slots := g.slots.push (some e) })

/-- Changes the entity at a place, if there is one. -/
def modify (g : Graph) (id : EntityId) (f : Entity → Entity) : Graph :=
  { g with slots := g.slots.modify id.index (Option.map f) }

/-- Puts a type into the arena, behind all others and without looking for it there. -/
def addType (g : Graph) (t : BridgeType) : TypeId × Graph :=
  (⟨g.types.size⟩, { g with types := g.types.push t })

/-- The populated slots in order. -/
def entities (g : Graph) : List (EntityId × Entity) :=
  (List.range g.slots.size).filterMap fun i => (g.entity? ⟨i⟩).map fun e => (⟨i⟩, e)

/-- The number of populated slots. -/
def size (g : Graph) : Nat := g.entities.length

/-- The bridge name at a place; empty for a vacant slot. -/
def bridgeName (g : Graph) (id : EntityId) : String :=
  ((g.entity? id).map Entity.bridgeName).getD ""

/-- Whether there is a static entity at a place. -/
def isStatic (g : Graph) (id : EntityId) : Bool :=
  (g.entity? id).any (·.flags.static)

/-- What the container at a place lists. -/
def members? (g : Graph) (id : EntityId) : Option Members :=
  (g.entity? id).bind Entity.members?

/-- The kind of the entity at a place. -/
def kind? (g : Graph) (id : EntityId) : Option Kind :=
  (g.entity? id).map Entity.kind

/-- Changes the members of a container; nothing happens at any other place. -/
def mapMembers (g : Graph) (id : EntityId) (f : Members → Members) : Graph :=
  g.modify id (·.mapMembers f)

/-! ### Order of members -/

/-- What members are sorted by: the bridge name in lower case. -/
def sortKey (g : Graph) (id : EntityId) : String :=
  Text.lowercase (g.bridgeName id)

/-- Sorts by bridge name without regard to case; equal names stay in order. -/
def sortByName (g : Graph) (ids : List EntityId) : List EntityId :=
  let keyed := ids.map fun id => (g.sortKey id, id)
  (keyed.mergeSort fun a b => a.1 ≤ b.1).map Prod.snd

/-- Sorts the four lists of methods and properties. -/
def sortMembers (g : Graph) (m : Members) : Members :=
  m.mapLists g.sortByName

/-- The top-level module of an entity. -/
def topModule? (g : Graph) (id : EntityId) : Option String :=
  (g.entity? id).map fun e => topLevelModule e.module

end Graph

end InteropGraph
