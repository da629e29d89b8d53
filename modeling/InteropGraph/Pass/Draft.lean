import InteropGraph.Graph.Basic
import InteropGraph.Report

/-!
# Drafts

A draft is a graph on its way to the generators, with the list of the entities that are presented
at the top level, and the report so far. A pass is a function on drafts.
-/

namespace InteropGraph

/-- A graph on its way to the generators. -/
structure Draft where
  graph : Graph
  listed : List EntityId
  report : Report

namespace Draft

/-- Changes the entity at a place. -/
def modify (d : Draft) (id : EntityId) (f : Entity → Entity) : Draft :=
  { d with graph := d.graph.modify id f }

/-- Replaces the members of the container at a place and counts those that are gone. -/
def replaceMembers (d : Draft) (id : EntityId) (before after : Members) : Draft :=
  { d with
    graph := d.graph.mapMembers id fun _ => after
    report := { d.report with
      removedMembers := d.report.removedMembers + (before.all.length - after.all.length) } }

/-- Gives the entity at a place another bridge name. -/
def rename (d : Draft) (id : EntityId) (name : String) : Draft :=
  { d.modify id fun e => { e with bridgeName := name, renamed := true } with
    report := { d.report with renamed := d.report.renamed + 1 } }

/-- Applies a step to every listed entity in turn. -/
def forListed (d : Draft) (step : Draft → EntityId → Draft) : Draft :=
  d.listed.foldl step d

end Draft

namespace Graph

/-- The bases of `start`, nearest first, where `visited` are not visited again; the fuel bounds
their number. -/
def basesFrom (g : Graph) : (fuel : Nat) → (visited : List EntityId) → Option EntityId →
    List EntityId
  | 0, _, _ => []
  | _, _, none => []
  | fuel + 1, visited, some id =>
    if id ∈ visited then []
    else
      match g.entity? id with
      | none => []
      | some e => id :: basesFrom g fuel (id :: visited) e.base?

/-- The populated entities above an interface, nearest first. The walk ends where it would come to
an entity for the second time. -/
def bases (g : Graph) (id : EntityId) : List EntityId :=
  g.basesFrom (g.slots.size + 1) [id] ((g.entity? id).bind Entity.base?)

end Graph

end InteropGraph
