import InteropGraph.Graph.Basic

/-!
# What a change of a graph does to its entities and types

Each operation on graphs is described by what `entity?` and `type?` give afterwards. A place is
only ever changed by name: everything else stays as it is.
-/

namespace InteropGraph.Graph

variable (g : Graph)

theorem index_lt_of_entity? {g : Graph} {id : EntityId} {e : Entity} (h : g.entity? id = some e) :
    id.index < g.slots.size := by
  obtain ⟨hlt, -⟩ := Array.getElem?_eq_some_iff.mp (Option.join_eq_some_iff.mp h)
  exact hlt

theorem members?_eq_some_iff {g : Graph} {id : EntityId} {m : Members} :
    g.members? id = some m ↔ ∃ e, g.entity? id = some e ∧ e.members? = some m :=
  Option.bind_eq_some_iff

theorem entity?_congr {g g' : Graph} {id : EntityId}
    (h : g'.slots[id.index]? = g.slots[id.index]?) : g'.entity? id = g.entity? id := by
  unfold entity?
  rw [h]

/-- A reserved slot is vacant, as it was before it existed. -/
@[simp] theorem entity?_reserve (id : EntityId) : g.reserve.2.entity? id = g.entity? id := by
  show (g.slots.push none)[id.index]?.join = g.slots[id.index]?.join
  rw [Array.getElem?_push]
  by_cases h : id.index = g.slots.size
  · rw [if_pos h, h, Array.getElem?_eq_none (Nat.le_refl _)]
    rfl
  · rw [if_neg h]

theorem entity?_fill {g : Graph} {id : EntityId} (h : id.index < g.slots.size) (e : Entity)
    (j : EntityId) : (g.fill id e).entity? j = if j = id then some e else g.entity? j := by
  show (g.slots.setIfInBounds id.index (some e))[j.index]?.join = _
  rw [Array.getElem?_setIfInBounds]
  by_cases hj : j = id
  · rw [if_pos (congrArg EntityId.index hj).symm, if_pos h, if_pos hj]
    rfl
  · have hne : id.index ≠ j.index := fun h => hj (EntityId.ext h.symm)
    rw [if_neg hne, if_neg hj]
    rfl

/-- What is in a slot after one has been filled is new or has been there before. -/
theorem entity?_of_fill {g : Graph} {id j : EntityId} {e e' : Entity}
    (h : (g.fill id e).entity? j = some e') : e' = e ∨ g.entity? j = some e' := by
  by_cases hid : id.index < g.slots.size
  · rw [entity?_fill hid] at h
    split at h
    · exact .inl (Option.some.inj h).symm
    · exact .inr h
  · have hsame : g.fill id e = g := by
      unfold fill
      rw [Array.setIfInBounds_eq_of_size_le (Nat.le_of_not_lt hid)]
    exact .inr (hsame ▸ h)

theorem entity?_insert (e : Entity) (j : EntityId) :
    (g.insert e).2.entity? j = if j = (g.insert e).1 then some e else g.entity? j := by
  show (g.slots.push (some e))[j.index]?.join = if j = ⟨g.slots.size⟩ then some e else _
  rw [Array.getElem?_push]
  by_cases hj : j = ⟨g.slots.size⟩
  · subst hj
    rw [if_pos rfl, if_pos rfl]
    rfl
  · have hne : j.index ≠ g.slots.size := fun h => hj (EntityId.ext h)
    rw [if_neg hne, if_neg hj]
    rfl

/-- The place of a new entity has been vacant. -/
theorem entity?_insert_fst (e : Entity) : g.entity? (g.insert e).1 = none := by
  cases h : g.entity? (g.insert e).1 with
  | none => rfl
  | some e' => exact absurd (index_lt_of_entity? h) (Nat.lt_irrefl _)

theorem entity?_modify (id : EntityId) (f : Entity → Entity) (j : EntityId) :
    (g.modify id f).entity? j = if j = id then (g.entity? id).map f else g.entity? j := by
  show (g.slots.modify id.index (Option.map f))[j.index]?.join = _
  rw [Array.getElem?_modify]
  by_cases hj : j = id
  · subst hj
    rw [if_pos rfl, if_pos rfl]
    unfold entity?
    cases g.slots[j.index]? <;> rfl
  · have hne : id.index ≠ j.index := fun h => hj (EntityId.ext h.symm)
    rw [if_neg hne, if_neg hj]
    rfl

/-- What a change leaves alone is still found. -/
theorem bind_entity?_modify {β : Type} (id : EntityId) {f : Entity → Entity}
    {p : Entity → Option β} (hp : ∀ e, p (f e) = p e) (x : EntityId) :
    ((g.modify id f).entity? x).bind p = (g.entity? x).bind p := by
  rw [entity?_modify]
  by_cases hx : x = id
  · rw [if_pos hx, hx]
    cases g.entity? id with
    | none => rfl
    | some e => exact hp e
  · rw [if_neg hx]

/-- What a new entity does not have is found where it was. -/
theorem bind_entity?_insert {β : Type} {e : Entity} {p : Entity → Option β} (he : p e = none)
    (x : EntityId) : ((g.insert e).2.entity? x).bind p = (g.entity? x).bind p := by
  rw [entity?_insert]
  by_cases hx : x = (g.insert e).1
  · rw [if_pos hx, hx, g.entity?_insert_fst e]
    exact he
  · rw [if_neg hx]

theorem type?_addType (t : BridgeType) (i : TypeId) :
    (g.addType t).2.type? i = if i = (g.addType t).1 then some t else g.type? i := by
  show (g.types.push t)[i.index]? = if i = ⟨g.types.size⟩ then some t else _
  rw [Array.getElem?_push]
  by_cases hi : i = ⟨g.types.size⟩
  · subst hi
    rw [if_pos rfl, if_pos rfl]
  · have hne : i.index ≠ g.types.size := fun h => hi (TypeId.ext h)
    rw [if_neg hne, if_neg hi]
    rfl

/-- What is in the arena stays there when a type is added. -/
theorem type?_addType_of_some {g : Graph} {i : TypeId} {type : BridgeType}
    (h : g.type? i = some type) (t : BridgeType) : (g.addType t).2.type? i = some type := by
  obtain ⟨hlt, -⟩ := Array.getElem?_eq_some_iff.mp h
  rw [type?_addType, if_neg, h]
  rintro rfl
  exact absurd hlt (Nat.lt_irrefl _)

/-- Sorting moves members around. -/
theorem mem_sortByName {ids : List EntityId} {id : EntityId} :
    id ∈ g.sortByName ids ↔ id ∈ ids := by
  unfold sortByName
  simp only [List.mem_map, List.mem_mergeSort]
  constructor
  · rintro ⟨_, ⟨i, hi, rfl⟩, rfl⟩
    exact hi
  · exact fun h => ⟨_, ⟨id, h, rfl⟩, rfl⟩

end InteropGraph.Graph
