import Mathlib.Data.List.Perm.Basic
import Mathlib.Data.List.Sort

/-!
# Stable sorting

A stable sort brings a list into the order of its keys, and leaves the elements with one key in the
order that they have had (`StableSort`). Since there is only one such list, it does not matter how
it is come by: a list that is sorted whenever something is appended to it ends up like one that is
sorted once (`StableSort.append`).
-/

namespace InteropGraph

variable {α κ : Type} [LE κ] [DecidableEq κ] {key : α → κ} {l s s' more : List α}

/-- `s` is `l`, sorted by key, where elements with the same key are in the order of `l`. -/
structure StableSort (key : α → κ) (l s : List α) : Prop where
  ordered : s.Pairwise fun a b => key a ≤ key b
  ties : ∀ k, s.filter (key · = k) = l.filter (key · = k)

namespace StableSort

/-- A sorted list has the entries of the list. -/
theorem mem_iff (h : StableSort key l s) {a : α} : a ∈ s ↔ a ∈ l := by
  have hfilter (l : List α) : a ∈ l.filter (key · = key a) ↔ a ∈ l :=
    List.mem_filter.trans (and_iff_left (decide_eq_true rfl))
  rw [← hfilter, h.ties, hfilter]

/-- Sorting keeps every element as often as it is there. -/
theorem perm (h : StableSort key l s) : s.Perm l := by
  classical
  refine List.perm_iff_count.mpr fun a => ?_
  have hcount (l : List α) : (l.filter (key · = key a)).count a = l.count a :=
    List.count_filter (decide_eq_true rfl)
  rw [← hcount, h.ties, hcount]

/-- Of two elements, the one that comes first has the smaller key, or has been first all along. -/
theorem pairwise (h : StableSort key l s) :
    s.Pairwise fun a b => key a ≤ key b ∧ (key a = key b → [a, b].Sublist l) := by
  refine List.pairwise_iff_forall_sublist.mpr fun {a b} hab => ?_
  refine ⟨List.pairwise_iff_forall_sublist.mp h.ordered hab, fun hkey => ?_⟩
  have htie : [a, b].filter (key · = key b) = [a, b] := by simp [hkey]
  have hsublist := hab.filter (key · = key b)
  rw [htie, h.ties] at hsublist
  exact hsublist.trans List.filter_sublist

/-- Sorting again after something has been appended sorts all of it. -/
theorem append (h : StableSort key l s) (h' : StableSort key (s ++ more) s') :
    StableSort key (l ++ more) s' where
  ordered := h'.ordered
  ties k := by rw [h'.ties, List.filter_append, h.ties, ← List.filter_append]

variable [Std.IsLinearOrder κ]

/-- A list that is in order stays as it is. -/
theorem eq_of_ordered (h : StableSort key l s) (hl : l.Pairwise fun a b => key a ≤ key b) :
    s = l := by
  induction s generalizing l with
  | nil =>
    cases l with
    | nil => rfl
    | cons b l => exact absurd (h.mem_iff.mpr List.mem_cons_self) List.not_mem_nil
  | cons a s ih =>
    cases l with
    | nil => exact absurd (h.mem_iff.mp List.mem_cons_self) List.not_mem_nil
    | cons b l =>
      -- each of the two heads is in the other list, so their keys are the same
      have hab : key a ≤ key b := by
        rcases List.mem_cons.mp (h.mem_iff.mpr List.mem_cons_self) with hb | hb
        · exact hb ▸ Std.le_refl (key b)
        · exact List.rel_of_pairwise_cons h.ordered hb
      have hba : key b ≤ key a := by
        rcases List.mem_cons.mp (h.mem_iff.mp List.mem_cons_self) with ha | ha
        · exact ha ▸ Std.le_refl (key a)
        · exact List.rel_of_pairwise_cons hl ha
      have hkey : key a = key b := Std.le_antisymm hab hba
      have hhead := h.ties (key b)
      simp only [List.filter_cons, hkey, decide_true, if_true, List.cons.injEq] at hhead
      obtain ⟨rfl, -⟩ := hhead
      refine congrArg _ (ih ⟨h.ordered.of_cons, fun k => ?_⟩ hl.of_cons)
      have htail := h.ties k
      by_cases hk : key a = k
      · simpa only [List.filter_cons, hk, decide_true, if_true, List.cons.injEq, true_and]
          using htail
      · simpa only [List.filter_cons, hk, decide_false, Bool.false_eq_true, if_false] using htail

/-- There is only one way to sort a list. -/
theorem unique (h : StableSort key l s) (h' : StableSort key l s') : s = s' :=
  eq_of_ordered ⟨h.ordered, fun k => (h.ties k).trans (h'.ties k).symm⟩ h'.ordered

end StableSort

/-- Merge sort is stable. -/
theorem stableSort_mergeSort [DecidableLE κ] [Std.IsLinearOrder κ] (key : α → κ) (l : List α) :
    StableSort key l (l.mergeSort fun a b => key a ≤ key b) := by
  have htrans (a b c : α) (hab : decide (key a ≤ key b) = true)
      (hbc : decide (key b ≤ key c) = true) : decide (key a ≤ key c) = true :=
    decide_eq_true (Std.le_trans (of_decide_eq_true hab) (of_decide_eq_true hbc))
  have htotal (a b : α) : (decide (key a ≤ key b) || decide (key b ≤ key a)) = true := by
    rw [Bool.or_eq_true, decide_eq_true_iff, decide_eq_true_iff]
    exact Std.le_total
  have hperm := List.mergeSort_perm l fun a b => decide (key a ≤ key b)
  refine ⟨(List.pairwise_mergeSort htrans htotal l).imp of_decide_eq_true, fun k => ?_⟩
  -- the elements with one key are in order, so that sorting leaves them in their order
  have htied : (l.filter (key · = k)).Pairwise fun a b => decide (key a ≤ key b) = true := by
    refine List.pairwise_of_forall_mem_list fun a ha b hb => decide_eq_true ?_
    rw [of_decide_eq_true (List.mem_filter.mp ha).2, of_decide_eq_true (List.mem_filter.mp hb).2]
    exact Std.le_refl k
  have hsublist :=
    (List.sublist_mergeSort htrans htotal htied List.filter_sublist).filter (key · = k)
  rw [List.filter_filter] at hsublist
  simp only [Bool.and_self] at hsublist
  exact (hsublist.eq_of_length (hperm.filter _).length_eq.symm).symm

end InteropGraph
