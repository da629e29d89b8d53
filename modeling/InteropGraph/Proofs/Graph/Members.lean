import InteropGraph.Proofs.Graph.Closed
import InteropGraph.Proofs.StableSort

/-!
# Lists of members

A container has four lists of methods and properties. They are told apart by `MemberList`, so that
what holds of each of them is said once.
-/

namespace InteropGraph

/-- The four lists of methods and properties. -/
inductive MemberList where
  | instanceMethods
  | staticMethods
  | instanceProperties
  | staticProperties
deriving DecidableEq

/-- The kind of the members in a list. -/
def MemberList.kind : MemberList → Kind
  | .instanceMethods | .staticMethods => .method
  | .instanceProperties | .staticProperties => .property

/-- Whether the members in a list are static. -/
def MemberList.isStatic : MemberList → Bool
  | .instanceMethods | .instanceProperties => false
  | .staticMethods | .staticProperties => true

namespace Members

/-- One of the four lists of a container by its name. -/
def list (m : Members) : MemberList → List EntityId
  | .instanceMethods => m.instanceMethods
  | .staticMethods => m.staticMethods
  | .instanceProperties => m.instanceProperties
  | .staticProperties => m.staticProperties

/-- Each list is changed by itself. -/
theorem list_mapLists (m : Members) (f : List EntityId → List EntityId) (k : MemberList) :
    (m.mapLists f).list k = f (m.list k) := by
  cases k <;> rfl

/-- The four lists together. -/
theorem mem_all_iff {m : Members} {i : EntityId} : i ∈ m.all ↔ ∃ k, i ∈ m.list k := by
  simp only [all, List.mem_append]
  constructor
  · rintro (((hi | hi) | hi) | hi)
    · exact ⟨.instanceMethods, hi⟩
    · exact ⟨.staticMethods, hi⟩
    · exact ⟨.instanceProperties, hi⟩
    · exact ⟨.staticProperties, hi⟩
  · rintro ⟨k, hi⟩
    cases k with
    | instanceMethods => exact .inl (.inl (.inl hi))
    | staticMethods => exact .inl (.inl (.inr hi))
    | instanceProperties => exact .inl (.inr hi)
    | staticProperties => exact .inr hi

/-- Lists that lose members lose them from all of them. -/
theorem sublist_all {m m' : Members} (h : ∀ k, (m'.list k).Sublist (m.list k)) :
    m'.all.Sublist m.all :=
  (((h .instanceMethods).append (h .staticMethods)).append (h .instanceProperties)).append
    (h .staticProperties)

end Members

namespace Entity

/-- Containers are the interfaces, protocols and categories. -/
theorem exists_members?_iff {e : Entity} : (∃ m, e.members? = some m) ↔
    e.kind = .interface ∨ e.kind = .protocol ∨ e.kind = .category := by
  unfold members? kind
  cases e.detail with
  | interface m base typeParams => exact ⟨fun _ => .inl rfl, fun _ => ⟨m, rfl⟩⟩
  | protocol m => exact ⟨fun _ => .inr (.inl rfl), fun _ => ⟨m, rfl⟩⟩
  | category m extended => exact ⟨fun _ => .inr (.inr rfl), fun _ => ⟨m, rfl⟩⟩
  | _ => exact ⟨nofun, by rintro (h | h | h) <;> cases h⟩

theorem kind_of_members? {e : Entity} {m : Members} (h : e.members? = some m) :
    e.kind = .interface ∨ e.kind = .protocol ∨ e.kind = .category :=
  exists_members?_iff.mp ⟨m, h⟩

/-- A change of members is seen in the members, if there are any. -/
theorem members?_mapMembers (e : Entity) (f : Members → Members) :
    (e.mapMembers f).members? = e.members?.map f := by
  unfold members? mapMembers
  cases e.detail <;> rfl

end Entity

namespace Graph

/-- There is a container at `x`, and `i` is in one of its lists. -/
def Lists (g : Graph) (x : EntityId) (k : MemberList) (i : EntityId) : Prop :=
  ∃ m, g.members? x = some m ∧ i ∈ m.list k

/-- Only one container has other members then. -/
theorem members?_mapMembers (g : Graph) (id : EntityId) (f : Members → Members) (x : EntityId) :
    (g.mapMembers id f).members? x =
      if x = id then (g.members? id).map f else g.members? x := by
  unfold members? mapMembers
  rw [entity?_modify]
  by_cases hx : x = id
  · rw [if_pos hx, if_pos hx]
    cases g.entity? id with
    | none => rfl
    | some e => exact e.members?_mapMembers f
  · rw [if_neg hx, if_neg hx]

/-- Names do not depend on members. -/
theorem bridgeName_mapMembers (g : Graph) (id : EntityId) (f : Members → Members) (i : EntityId) :
    (g.mapMembers id f).bridgeName i = g.bridgeName i := by
  unfold bridgeName mapMembers
  rw [entity?_modify]
  by_cases hi : i = id
  · rw [if_pos hi, hi]
    cases g.entity? id <;> rfl
  · rw [if_neg hi]

/-- The members of a container in a closed set exist. -/
theorem Closed.exists_member {g : Graph} {L : Set Node} {x : EntityId} {m : Members}
    {k : MemberList} {i : EntityId} (h : g.Closed L) (hx : .entity x ∈ L)
    (hm : g.members? x = some m) (hi : i ∈ m.list k) : ∃ e, g.entity? i = some e := by
  have hmem : i ∈ m.all ++ m.protocols :=
    List.mem_append_left _ (Members.mem_all_iff.mpr ⟨k, hi⟩)
  exact h.exists_entity (h.of_members hx hm _ (List.mem_map.mpr ⟨i, hmem, rfl⟩))

/-- Sorted by bridge name without regard to case. -/
def Sorted (g : Graph) (ids : List EntityId) : Prop :=
  ids.Pairwise fun i j => g.sortKey i ≤ g.sortKey j

/-- Sorting by name is sorting by the keys in their linear order. -/
theorem sortByName_eq_mergeSort (g : Graph) (ids : List EntityId) :
    g.sortByName ids = ids.mergeSort fun i j => g.sortKey i ≤ g.sortKey j := by
  let keyed (i : EntityId) : String × EntityId := (g.sortKey i, i)
  have hkeyed : (ids.mergeSort fun i j => g.sortKey i ≤ g.sortKey j).map keyed =
      (ids.map keyed).mergeSort fun a b => a.1 ≤ b.1 :=
    List.map_mergeSort fun _ _ _ _ => decide_eq_decide.mpr Iff.rfl
  show ((ids.map keyed).mergeSort fun a b => a.1 ≤ b.1).map Prod.snd = _
  rw [← hkeyed, List.map_map]
  exact List.map_id _

theorem stableSort_sortByName (g : Graph) (ids : List EntityId) :
    StableSort g.sortKey ids (g.sortByName ids) :=
  g.sortByName_eq_mergeSort ids ▸ stableSort_mergeSort g.sortKey ids

theorem sorted_sortByName (g : Graph) (ids : List EntityId) : g.Sorted (g.sortByName ids) :=
  (g.stableSort_sortByName ids).ordered

/-- Sorting keeps every member as often as it is there. -/
theorem sortByName_perm (g : Graph) (ids : List EntityId) : (g.sortByName ids).Perm ids :=
  (g.stableSort_sortByName ids).perm

/-- Sorting now and again as the list grows comes to the same as sorting once. -/
theorem sortByName_append (g : Graph) (ids more : List EntityId) :
    g.sortByName (g.sortByName ids ++ more) = g.sortByName (ids ++ more) :=
  ((g.stableSort_sortByName ids).append (g.stableSort_sortByName _)).unique
    (g.stableSort_sortByName _)

/-- A list stays sorted while members change. -/
theorem sorted_mapMembers {g : Graph} {ids : List EntityId} (h : g.Sorted ids) (id : EntityId)
    (f : Members → Members) : (g.mapMembers id f).Sorted ids := by
  refine h.imp fun {i j} hij => ?_
  unfold sortKey at hij ⊢
  rw [bridgeName_mapMembers, bridgeName_mapMembers]
  exact hij

end Graph

end InteropGraph
