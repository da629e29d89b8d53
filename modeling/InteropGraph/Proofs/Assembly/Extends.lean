import InteropGraph.Proofs.Assembly.Run

/-!
# Assemblies only grow

`Extends unit a b` says that `b` comes from `a` without loss: every slot and every type that was
there is still the same, every answer still stands, and the journals of `b` are those of `a` with
something in front that had no answer in `a`. Every request leads to an extension, whatever it
fails at inside (`request_extending`), and so does every step that is made of requests.

The journals carry the argument. What was begun since the mark had no answer at the mark, so when a
construction fails, `forgetSince` takes away exactly what was made since then: the failed
construction leaves no trace in the memory but its failure (`Restores`).
-/

namespace InteropGraph.Assembly

/-- `b` comes from `a` without loss. -/
structure Extends (unit : SourceUnit) (a b : Assembly) : Prop where
  size_le : a.graph.slots.size ≤ b.graph.slots.size
  slot : ∀ {i}, i < a.graph.slots.size → b.graph.slots[i]? = a.graph.slots[i]?
  type : ∀ {t type}, a.graph.type? t = some type → b.graph.type? t = some type
  answer : ∀ {d r}, a.answer? d = some r → b.answer? d = some r
  typeId : ∀ {t id}, a.typeId? t = some id → b.typeId? t = some id
  /-- Only what is declared gets an answer. -/
  declared : ∀ {d r}, b.answer? d = some r → a.answer? d = some r ∨ (unit.declaration? d).isSome
  /-- An entity that is new is complete, and in a new slot. -/
  made : ∀ {d id}, b.answer? d = some (.ok id) → a.answer? d = some (.ok id) ∨
    a.graph.slots.size ≤ id.index ∧ ∃ e, b.graph.entity? id = some e ∧ e.source = some d
  begun : ∃ new, b.begun = new ++ a.begun ∧ (∀ d ∈ new, a.answer? d = none) ∧
    ∀ d id, b.answer? d = some (.ok id) → a.answer? d = some (.ok id) ∨ d ∈ new
  resolved : ∃ new, b.resolved = new ++ a.resolved ∧ (∀ t ∈ new, a.typeId? t = none) ∧
    ∀ t id, b.typeId? t = some id → a.typeId? t = some id ∨ t ∈ new

variable {unit : SourceUnit} {a b c : Assembly} {d x : DeclRef}

namespace Extends

theorem refl (unit : SourceUnit) (a : Assembly) : Extends unit a a where
  size_le := Nat.le_refl _
  slot _ := rfl
  type h := h
  answer h := h
  typeId h := h
  declared h := .inl h
  made h := .inl h
  begun := ⟨[], rfl, by simp, fun _ _ h => .inl h⟩
  resolved := ⟨[], rfl, by simp, fun _ _ h => .inl h⟩

/-- An entity stays where it is. -/
theorem entity (h : Extends unit a b) {id : EntityId} {e : Entity}
    (he : a.graph.entity? id = some e) : b.graph.entity? id = some e := by
  rw [Graph.entity?_congr (h.slot (Graph.index_lt_of_entity? he)), he]

/-- What has no answer in the end had none before. -/
theorem answer_eq_none (h : Extends unit a b) (hb : b.answer? d = none) : a.answer? d = none := by
  cases ha : a.answer? d with
  | none => rfl
  | some r => exact absurd (h.answer ha) (by simp [hb])

/-- A type that is not remembered in the end was not before. -/
theorem typeId_eq_none (h : Extends unit a b) {t : TypeRef} (hb : b.typeId? t = none) :
    a.typeId? t = none := by
  cases ha : a.typeId? t with
  | none => rfl
  | some id => exact absurd (h.typeId ha) (by simp [hb])

theorem trans (hab : Extends unit a b) (hbc : Extends unit b c) : Extends unit a c where
  size_le := Nat.le_trans hab.size_le hbc.size_le
  slot hi := (hbc.slot (Nat.lt_of_lt_of_le hi hab.size_le)).trans (hab.slot hi)
  type h := hbc.type (hab.type h)
  answer h := hbc.answer (hab.answer h)
  typeId h := hbc.typeId (hab.typeId h)
  declared h := (hbc.declared h).elim hab.declared .inr
  made h := by
    rcases hbc.made h with hb | ⟨hle, hnew⟩
    · rcases hab.made hb with ha | ⟨hle, e, he, hs⟩
      · exact .inl ha
      · exact .inr ⟨hle, e, hbc.entity he, hs⟩
    · exact .inr ⟨Nat.le_trans hab.size_le hle, hnew⟩
  begun := by
    -- the new part is what is new in `c`, in front of what is new in `b`
    obtain ⟨old, hb, hold, hready⟩ := hab.begun
    obtain ⟨new, hc, hnew, hready'⟩ := hbc.begun
    refine ⟨new ++ old, by rw [hc, hb, List.append_assoc], ?_, ?_⟩
    · intro d hd
      rcases List.mem_append.mp hd with hd | hd
      · exact hab.answer_eq_none (hnew d hd)
      · exact hold d hd
    · intro d id hd
      rcases hready' d id hd with hd | hd
      · exact (hready d id hd).imp_right (List.mem_append_right _)
      · exact .inr (List.mem_append_left _ hd)
  resolved := by
    obtain ⟨old, hb, hold, hready⟩ := hab.resolved
    obtain ⟨new, hc, hnew, hready'⟩ := hbc.resolved
    refine ⟨new ++ old, by rw [hc, hb, List.append_assoc], ?_, ?_⟩
    · intro t ht
      rcases List.mem_append.mp ht with ht | ht
      · exact hab.typeId_eq_none (hnew t ht)
      · exact hold t ht
    · intro t id ht
      rcases hready' t id ht with ht | ht
      · exact (hready t id ht).imp_right (List.mem_append_right _)
      · exact .inr (List.mem_append_left _ ht)

/-- Counts do not matter. -/
theorem countHit (unit : SourceUnit) (a : Assembly) : Extends unit a a.countHit :=
  { refl unit a with }

/-- A type is added that had not been resolved at the beginning; it may have been since. -/
theorem addType (h : Extends unit a b) {t : TypeRef} (ht : a.typeId? t = none)
    (type : BridgeType) : Extends unit a ((addType t type).run b).2 :=
  { h with
    type := fun hu => Graph.type?_addType_of_some (h.type hu) type
    typeId := fun {u id} hu => by
      -- `t` itself had no place in `a`, so no place of `a` is overridden
      have hne : u ≠ t := by
        rintro rfl
        exact absurd hu (by simp [ht])
      rw [typeId?_addType, if_neg hne]
      exact h.typeId hu
    resolved := by
      obtain ⟨new, hb, hnew, hready⟩ := h.resolved
      refine ⟨t :: new, congrArg (t :: ·) hb, ?_, ?_⟩
      · intro u hu
        rcases List.mem_cons.mp hu with rfl | hu
        · exact ht
        · exact hnew u hu
      · intro u id hu
        by_cases hut : u = t
        · exact .inr (List.mem_cons.mpr (.inl hut))
        · rw [typeId?_addType, if_neg hut] at hu
          exact (hready u id hu).imp_right (List.mem_cons_of_mem t) }

end Extends

/-! ### Constructions

A construction of `d` begins in `a`, where `d` has no answer, and its steps lead from there to
`b`. -/

/-- Everything that is remembered in `a` but failures is remembered in `b`, and nothing else. -/
structure Restores (a b : Assembly) : Prop where
  ready : ∀ d id, b.answer? d = some (.ok id) ↔ a.answer? d = some (.ok id)
  typeId : ∀ t, b.typeId? t = a.typeId? t
  begun : b.begun = a.begun
  resolved : b.resolved = a.resolved

section Construct

variable (h : Extends unit (a.begin d).2 b)
include h

/-- What has been begun since the mark is `d` and what has been begun inside. -/
theorem begun_eq : ∃ new, b.begun = (new ++ [d]) ++ a.begun ∧
    (∀ x ∈ new, (a.begin d).2.answer? x = none) ∧ ∀ x id, b.answer? x = some (.ok id) →
      (a.begin d).2.answer? x = some (.ok id) ∨ x ∈ new := by
  obtain ⟨new, hb, hnew, hready⟩ := h.begun
  refine ⟨new, ?_, hnew, hready⟩
  rw [hb, List.append_assoc]
  rfl

/-- The slot of a construction is still vacant when its steps are done. -/
theorem slot_eq_none : b.graph.slots[(a.begin d).1.index]? = some none := by
  rw [← slot_begin_self a d]
  exact h.slot (by rw [size_begin]; exact Nat.lt_succ_self _)

/-- Completing an entity fills its slot and touches no other. -/
theorem entity?_complete (e : Entity) (id : EntityId) :
    (b.complete (a.begin d).1 e).graph.entity? id =
      if id = (a.begin d).1 then some e else b.graph.entity? id := by
  obtain ⟨hlt, -⟩ := Array.getElem?_eq_some_iff.mp (slot_eq_none h)
  exact Graph.entity?_fill hlt e id

/-- What has an answer after a failure and is not the failed declaration has had it before. -/
theorem answer?_of_answer?_abandon {f : Failure} {r : Answer} (hne : x ≠ d)
    (hx : (b.abandon a.mark d f).answer? x = some r) :
    b.answer? x = some r ∧ (∀ id, r = .ok id → a.answer? x = some r) := by
  obtain ⟨new, hb, -, hready⟩ := begun_eq h
  rw [answer?_abandon, if_neg hne, answer?_forgetSince hb _ rfl] at hx
  by_cases hgone : x ∈ new ++ [d] ∧ b.isReady x
  · rw [if_pos hgone] at hx
    cases hx
  · rw [if_neg hgone] at hx
    refine ⟨hx, ?_⟩
    rintro id rfl
    -- had `x` been begun inside and be ready, it would be forgotten
    have hold : x ∉ new := fun hmem =>
      hgone ⟨List.mem_append_left _ hmem, isReady_iff.mpr ⟨id, hx⟩⟩
    have hbegin := (hready x id hx).resolve_right hold
    rwa [answer?_begin, if_neg hne] at hbegin

/-- Failures that were met inside a construction outlive it. -/
theorem answer?_abandon_of_error (f : Failure) {g : Failure}
    (hx : b.answer? x = some (.error g)) :
    (b.abandon a.mark d f).answer? x = some (.error g) := by
  obtain ⟨new, hb, -, -⟩ := begun_eq h
  have hne : x ≠ d := by
    rintro rfl
    have hslot : b.answer? x = some (.ok (a.begin x).1) :=
      h.answer (by rw [answer?_begin, if_pos rfl])
    cases hslot.symm.trans hx
  have hready : ¬b.isReady x := by
    rw [isReady_iff]
    rintro ⟨id, hid⟩
    cases hid.symm.trans hx
  rw [answer?_abandon, if_neg hne, answer?_forgetSince hb _ rfl, if_neg fun hc => hready hc.2, hx]

variable (hd : a.answer? d = none)
include hd

/-- What had an answer when the construction began has the same one after it has failed. -/
theorem answer?_abandon_of_answer? (f : Failure) {r : Answer} (hx : a.answer? x = some r) :
    (b.abandon a.mark d f).answer? x = some r := by
  obtain ⟨new, hb, hnew, -⟩ := begun_eq h
  have hne : x ≠ d := by
    rintro rfl
    exact absurd hx (by simp [hd])
  have hbegin : (a.begin d).2.answer? x = some r := by rw [answer?_begin, if_neg hne, hx]
  -- what is forgotten had no answer when the construction began
  have hold : x ∉ new ++ [d] := by
    intro hmem
    rcases List.mem_append.mp hmem with hmem | hmem
    · exact absurd (hnew x hmem) (by simp [hbegin])
    · exact hne (List.mem_singleton.mp hmem)
  rw [answer?_abandon, if_neg hne, answer?_forgetSince hb _ rfl, if_neg fun hc => hold hc.1]
  exact h.answer hbegin

/-- A failed construction leaves nothing but failures. -/
theorem abandon_restores (f : Failure) : Restores a (b.abandon a.mark d f) where
  ready x id := by
    refine ⟨fun hx => ?_, answer?_abandon_of_answer? h hd f⟩
    have hne : x ≠ d := by
      rintro rfl
      rw [answer?_abandon, if_pos rfl] at hx
      cases hx
    exact (answer?_of_answer?_abandon h hne hx).2 id rfl
  typeId t := by
    obtain ⟨new, hr, hnew, hready⟩ := h.resolved
    -- types that are new are forgotten, and the others were known at the mark
    show (b.forgetSince a.mark).typeId? t = a.typeId? t
    rw [typeId?_forgetSince hr _ rfl]
    by_cases ht : t ∈ new
    · rw [if_pos ht]
      exact (hnew t ht).symm
    · rw [if_neg ht]
      cases hb : b.typeId? t with
      | none => exact (h.typeId_eq_none hb).symm
      | some id => exact ((hready t id hb).resolve_right ht).symm
  begun := by
    obtain ⟨new, hb, -⟩ := begun_eq h
    exact begun_forgetSince hb _ rfl
  resolved := by
    obtain ⟨new, hr, -⟩ := h.resolved
    exact resolved_forgetSince hr _ rfl

/-- A construction that fails leaves the memory as it was, with its failure added, and slots that
are never filled again. -/
theorem abandon_extends (hdecl : (unit.declaration? d).isSome) (f : Failure) :
    Extends unit a (b.abandon a.mark d f) where
  size_le := Nat.le_trans (by rw [size_begin]; exact Nat.le_succ _) h.size_le
  slot hi := by
    rw [← slot_begin hi d]
    exact h.slot (by rw [size_begin]; exact Nat.lt_succ_of_lt hi)
  type ht := h.type ht
  answer := answer?_abandon_of_answer? h hd f
  typeId ht := by rw [(abandon_restores h hd f).typeId, ht]
  declared {x r} hx := by
    by_cases hne : x = d
    · exact .inr (hne ▸ hdecl)
    · have hb := (answer?_of_answer?_abandon h hne hx).1
      have hbegin := h.declared hb
      rwa [answer?_begin, if_neg hne] at hbegin
  made hx := .inl (((abandon_restores h hd f).ready _ _).mp hx)
  begun := ⟨[], (abandon_restores h hd f).begun, by simp, fun _ _ hx =>
    .inl (((abandon_restores h hd f).ready _ _).mp hx)⟩
  resolved := ⟨[], (abandon_restores h hd f).resolved, by simp, fun t id ht =>
    .inl (by rwa [(abandon_restores h hd f).typeId] at ht)⟩

/-- A construction that succeeds adds its answer and its entity. -/
theorem complete_extends (hdecl : (unit.declaration? d).isSome) {e : Entity}
    (he : e.source = some d) : Extends unit a (b.complete (a.begin d).1 e) where
  size_le := by
    show _ ≤ (b.graph.slots.setIfInBounds _ _).size
    rw [Array.size_setIfInBounds]
    exact Nat.le_trans (by rw [size_begin]; exact Nat.le_succ _) h.size_le
  slot {i} hi := by
    show (b.graph.slots.setIfInBounds a.graph.slots.size (some e))[i]? = _
    rw [Array.getElem?_setIfInBounds, if_neg (Nat.ne_of_gt hi), ← slot_begin hi d]
    exact h.slot (by rw [size_begin]; exact Nat.lt_succ_of_lt hi)
  type ht := h.type ht
  answer {x r} hx := by
    have hne : x ≠ d := by
      rintro rfl
      exact absurd hx (by simp [hd])
    exact h.answer (by rw [answer?_begin, if_neg hne, hx])
  typeId ht := h.typeId ht
  declared {x r} hx := by
    by_cases hne : x = d
    · exact .inr (hne ▸ hdecl)
    · have hbegin := h.declared hx
      rwa [answer?_begin, if_neg hne] at hbegin
  made {x id} hx := by
    have hfill := entity?_complete h e
    -- an answer of the beginning is that of `d` itself or an older one; what was made inside has
    -- a slot behind that of `d`
    rcases h.made hx with hbegin | ⟨hle, e', he', hs⟩
    · by_cases hne : x = d
      · rw [answer?_begin, if_pos hne] at hbegin
        cases hbegin
        exact .inr ⟨Nat.le_refl _, e, by rw [hfill, if_pos rfl], hne ▸ he⟩
      · rw [answer?_begin, if_neg hne] at hbegin
        exact .inl hbegin
    · rw [size_begin] at hle
      have hne : id ≠ (a.begin d).1 := by
        rintro rfl
        exact absurd hle (Nat.not_succ_le_self _)
      exact .inr ⟨Nat.le_of_succ_le hle, e', by rw [hfill, if_neg hne, he'], hs⟩
  begun := by
    obtain ⟨new, hb, hnew, hready⟩ := begun_eq h
    refine ⟨new ++ [d], hb, ?_, ?_⟩
    · intro x hx
      rcases List.mem_append.mp hx with hx | hx
      · have hbegin := hnew x hx
        by_cases hne : x = d
        · rw [hne, hd]
        · rwa [answer?_begin, if_neg hne] at hbegin
      · rw [List.mem_singleton.mp hx, hd]
    · intro x id hx
      by_cases hne : x = d
      · exact .inr (List.mem_append_right _ (List.mem_singleton.mpr hne))
      · rcases hready x id hx with hbegin | hmem
        · rw [answer?_begin, if_neg hne] at hbegin
          exact .inl hbegin
        · exact .inr (List.mem_append_left _ hmem)
  resolved := h.resolved

end Construct

end InteropGraph.Assembly
