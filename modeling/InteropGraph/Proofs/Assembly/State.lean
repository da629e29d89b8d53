import InteropGraph.Assembly.Request
import InteropGraph.Proofs.Graph.Basic

/-!
# What a change of an assembly does to its memory

An assembly is seen through `answer?`, `typeId?` and its graph. Each operation is described by what
these give afterwards. `forgetSince` is the only operation that takes something away: the entities
and types in the part of the journals above a mark.
-/

namespace InteropGraph.Assembly

/-- Filtering a table by its keys filters what can be looked up. -/
theorem lookup_filter_fst [DecidableEq κ] (p : κ → Bool) (k : κ) (table : List (κ × α)) :
    (table.filter fun entry => p entry.1).lookup k = if p k then table.lookup k else none := by
  induction table with
  | nil => simp
  | cons entry table ih =>
    obtain ⟨j, v⟩ := entry
    rw [List.filter_cons]
    by_cases hj : k = j
    · subst hj
      cases hp : p k with
      | true => simp
      | false => simpa [hp] using ih
    · have hne : (k == j) = false := by simpa using hj
      cases hp : p j with
      | true => simp [List.lookup_cons, hne, ih]
      | false => simp [List.lookup_cons, hne, ih]

variable {a b : Assembly} {d x : DeclRef} {t u : TypeRef} {f : Failure}

/-- A declaration is ready with a place, not with a failure. -/
theorem isReady_iff : a.isReady d = true ↔ ∃ id, a.answer? d = some (.ok id) := by
  unfold isReady
  rcases a.answer? d with _ | f | id
  · simp
  · simp [Except.isOk, Except.toBool]
  · simp [Except.isOk, Except.toBool]

/-! ### Beginning and completing -/

/-- Only the answer of one declaration is taken back. -/
theorem answer?_retract (a : Assembly) (d x : DeclRef) :
    (a.retract d).answer? x = if x = d then none else a.answer? x := by
  have h := lookup_filter_fst (fun x => decide (x ≠ d)) x a.answers
  show (a.answers.filter fun entry => decide (entry.1 ≠ d)).lookup x = _
  rw [h]
  by_cases hx : x = d <;> simp [hx, answer?]

/-- Taking an answer back twice is taking it back once. -/
theorem retract_retract (a : Assembly) (d : DeclRef) : (a.retract d).retract d = a.retract d := by
  have h := List.filter_filter (p := fun entry : DeclRef × Answer => decide (entry.1 ≠ d))
    (q := fun entry => decide (entry.1 ≠ d)) (l := a.answers)
  simp only [Bool.and_self] at h
  show { a with answers := (a.answers.filter _).filter _ } = _
  rw [h]
  rfl

/-- An answer that is replaced anyway can be forgotten before. -/
theorem begin_retract (a : Assembly) (d : DeclRef) : (a.retract d).begin d = a.begin d := by
  unfold begin
  rw [retract_retract]
  rfl

/-- What begins is answered by the slot that it takes. -/
theorem answer?_begin (a : Assembly) (d x : DeclRef) :
    (a.begin d).2.answer? x = if x = d then some (.ok (a.begin d).1) else a.answer? x := by
  show ((d, _) :: (a.retract d).answers).lookup x = _
  rw [List.lookup_cons]
  by_cases hx : x = d
  · rw [if_pos hx, beq_iff_eq.mpr hx]
    rfl
  · have hne : (x == d) = false := by simpa using hx
    rw [hne, if_neg hx, ← answer?, answer?_retract, if_neg hx]

@[simp] theorem entity?_begin (a : Assembly) (d : DeclRef) (id : EntityId) :
    (a.begin d).2.graph.entity? id = a.graph.entity? id :=
  Graph.entity?_reserve a.graph id

/-- A construction takes one slot. -/
theorem size_begin (a : Assembly) (d : DeclRef) :
    (a.begin d).2.graph.slots.size = a.graph.slots.size + 1 := by
  simp [begin, Graph.reserve]

/-- The slots before it stay as they are. -/
theorem slot_begin {i : Nat} (h : i < a.graph.slots.size) (d : DeclRef) :
    (a.begin d).2.graph.slots[i]? = a.graph.slots[i]? := by
  show (a.graph.slots.push none)[i]? = _
  rw [Array.getElem?_push, if_neg (Nat.ne_of_lt h)]

/-- The slot of a construction is vacant when it begins. -/
theorem slot_begin_self (a : Assembly) (d : DeclRef) :
    (a.begin d).2.graph.slots[(a.begin d).1.index]? = some none := by
  show (a.graph.slots.push none)[a.graph.slots.size]? = _
  rw [Array.getElem?_push, if_pos rfl]

/-! ### Resolving a type -/

/-- Remembers a resolved type. -/
theorem run_addType (t : TypeRef) (type : BridgeType) (a : Assembly) :
    (addType t type).run a = (.ok (a.graph.addType type).1,
      { a with
        graph := (a.graph.addType type).2
        types := (t, (a.graph.addType type).1) :: a.types
        resolved := t :: a.resolved }) := rfl

/-- A type is remembered with its new place. -/
theorem typeId?_addType (a : Assembly) (t u : TypeRef) (type : BridgeType) :
    ((addType t type).run a).2.typeId? u =
      if u = t then some (a.graph.addType type).1 else a.typeId? u := by
  show ((t, _) :: a.types).lookup u = _
  rw [List.lookup_cons]
  by_cases hu : u = t
  · rw [if_pos hu, beq_iff_eq.mpr hu]
    rfl
  · have hne : (u == t) = false := by simpa using hu
    rw [hne, if_neg hu]
    rfl

/-! ### Forgetting

The journals at the mark are `begun` and `resolved`; what stands above them has been made since. -/

section Forget

variable {begun newBegun : List DeclRef} {resolved newResolved : List TypeRef}

/-- What has begun since the mark is forgotten unless it has failed. -/
theorem answer?_forgetSince (hb : a.begun = newBegun ++ begun) (m : Mark)
    (hm : m.begun = begun.length) (x : DeclRef) :
    (a.forgetSince m).answer? x =
      if x ∈ newBegun ∧ a.isReady x then none else a.answer? x := by
  have hnew : a.begun.take (a.begun.length - m.begun) = newBegun := by
    rw [hb, hm, List.length_append, Nat.add_sub_cancel]
    exact List.take_left
  have h := lookup_filter_fst (fun x => !(decide (x ∈ newBegun) && a.isReady x)) x a.answers
  show (a.answers.filter fun entry =>
    !(decide (entry.1 ∈ a.begun.take (a.begun.length - m.begun)) && a.isReady entry.1)).lookup x = _
  rw [hnew, h]
  by_cases hx : x ∈ newBegun ∧ a.isReady x
  · rw [if_pos hx, if_neg (by simp [hx.1, hx.2])]
  · rw [if_neg hx, if_pos (by simpa [Decidable.imp_iff_not_or] using hx)]
    rfl

/-- Types that have been resolved since the mark are forgotten. -/
theorem typeId?_forgetSince (hr : a.resolved = newResolved ++ resolved) (m : Mark)
    (hm : m.resolved = resolved.length) (t : TypeRef) :
    (a.forgetSince m).typeId? t = if t ∈ newResolved then none else a.typeId? t := by
  have hnew : a.resolved.take (a.resolved.length - m.resolved) = newResolved := by
    rw [hr, hm, List.length_append, Nat.add_sub_cancel]
    exact List.take_left
  have h := lookup_filter_fst (fun t => decide (t ∉ newResolved)) t a.types
  show (a.types.filter fun entry =>
    decide (entry.1 ∉ a.resolved.take (a.resolved.length - m.resolved))).lookup t = _
  rw [hnew, h]
  by_cases ht : t ∈ newResolved <;> simp [ht, typeId?]

/-- The journal of declarations is as it was at the mark. -/
theorem begun_forgetSince (hb : a.begun = newBegun ++ begun) (m : Mark)
    (hm : m.begun = begun.length) : (a.forgetSince m).begun = begun := by
  show a.begun.drop (a.begun.length - m.begun) = begun
  rw [hb, hm, List.length_append, Nat.add_sub_cancel]
  exact List.drop_left

/-- The journal of types is as it was at the mark. -/
theorem resolved_forgetSince (hr : a.resolved = newResolved ++ resolved) (m : Mark)
    (hm : m.resolved = resolved.length) : (a.forgetSince m).resolved = resolved := by
  show a.resolved.drop (a.resolved.length - m.resolved) = resolved
  rw [hr, hm, List.length_append, Nat.add_sub_cancel]
  exact List.drop_left

end Forget

/-- An abandoned construction answers with its failure, and leaves the rest to `forgetSince`. -/
theorem answer?_abandon (a : Assembly) (m : Mark) (d : DeclRef) (f : Failure) (x : DeclRef) :
    (a.abandon m d f).answer? x =
      if x = d then some (.error f) else (a.forgetSince m).answer? x := by
  show ((d, _) :: (a.forgetSince m).answers).lookup x = _
  rw [List.lookup_cons]
  by_cases hx : x = d
  · simp [hx]
  · have hne : (x == d) = false := by simpa using hx
    rw [hne, if_neg hx]
    rfl

end InteropGraph.Assembly
