import InteropGraph.Graph.Basic
import InteropGraph.Unseen

/-!
# What a graph reaches

The entities and types that can be reached from given entities by following the references in
members, signatures and types. A reference that leads nowhere is not followed.
-/

namespace InteropGraph

/-- Something in a graph: an entity or a type. -/
inductive Node where
  | entity (id : EntityId)
  | type (id : TypeId)
deriving DecidableEq, Repr

/-- The nodes that a type refers to. -/
def BridgeType.references : BridgeType → List Node
  | .object protocols => protocols.map .entity
  | .interface e protocols arguments =>
    .entity e :: protocols.map .entity ++ arguments.map .type
  | .pointer t | .constantArray t _ | .incompleteArray t => [.type t]
  | .block signature | .functionPointer signature => signature.map .type
  | .struct e | .enumeration e => [.entity e]
  | .scalar _ | .typeParameter _ | .union _ => []

/-- The nodes that the members of a container are. -/
def Members.references (m : Members) : List Node :=
  (m.all ++ m.protocols).map .entity

/-- The nodes that an entity refers to. -/
def Detail.references : Detail → List Node
  | .struct fields => fields.map fun f => .type f.type
  | .function signature => signature.map .type
  | .variable t _ => [.type t]
  | .interface m base _ => m.references ++ base.toList.map .entity
  | .protocol m => m.references
  | .category m extended => m.references ++ [.entity extended]
  | .method signature _ => signature.map .type
  | .property getter setter => getter.toList.map .entity ++ setter.toList.map .entity
  | .enumeration .. | .enumConstant _ => []

namespace Graph

/-- The nodes that a node refers to; nothing if there is no such node in the graph. -/
def references? (g : Graph) : Node → Option (List Node)
  | .entity id => (g.entity? id).map fun e => e.detail.references
  | .type id => (g.type? id).map BridgeType.references

/-- The nodes of a graph. -/
def nodes (g : Graph) : List Node :=
  (List.range g.slots.size).map (fun i => .entity ⟨i⟩) ++
    (List.range g.types.size).map (fun i => .type ⟨i⟩)

theorem mem_nodes_of_references? {g : Graph} {n : Node} {next : List Node}
    (h : g.references? n = some next) : n ∈ g.nodes := by
  unfold nodes
  cases n with
  | entity id =>
    obtain ⟨e, he, -⟩ := Option.map_eq_some_iff.mp h
    simp only [entity?, Option.join_eq_some_iff] at he
    obtain ⟨hlt, -⟩ := Array.getElem?_eq_some_iff.mp he
    exact List.mem_append_left _ (List.mem_map.mpr ⟨_, List.mem_range.mpr hlt, rfl⟩)
  | type id =>
    obtain ⟨t, ht, -⟩ := Option.map_eq_some_iff.mp h
    obtain ⟨hlt, -⟩ := Array.getElem?_eq_some_iff.mp ht
    exact List.mem_append_right _ (List.mem_map.mpr ⟨_, List.mem_range.mpr hlt, rfl⟩)

/-- Follows the references of the pending nodes and adds what is found to `seen`. -/
def explore (g : Graph) (seen : List Node) : List Node → List Node
  | [] => seen
  | n :: pending =>
    if _fresh : n ∈ seen then explore g seen pending
    else
      match _found : g.references? n with
      | none => explore g seen pending
      | some next => explore g (n :: seen) (next ++ pending)
termination_by pending => (unseen g.nodes seen, pending.length)
decreasing_by
  · exact Prod.Lex.right _ (by simp)
  · exact Prod.Lex.right _ (by simp)
  · exact Prod.Lex.left _ _ (unseen_cons_lt (mem_nodes_of_references? _found) _fresh)

/-- The nodes that can be reached from the given entities. -/
def reachable (g : Graph) (roots : List EntityId) : List Node :=
  g.explore [] (roots.map .entity)

end Graph

end InteropGraph
