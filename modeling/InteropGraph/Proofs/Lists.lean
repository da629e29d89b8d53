import Mathlib.Data.List.Forall2
import Mathlib.Data.List.Induction
import Mathlib.Data.List.Nodup
import Mathlib.Order.Basic

/-!
# Lists

What the library leaves open about the lists that the model is made of: the order in which entries
come up, lists without repetitions, two lists that run side by side, and checks of all entries.
-/

namespace List

variable {α β ε : Type} {R : α → β → Prop} {l : List α} {l' : List β}

/-! ### Order and repetitions -/

section Repetitions

variable [BEq α] [LawfulBEq α]

/-- What is left of a list without its repetitions is in the order in which it has come up. -/
theorem pairwise_idxOf_eraseDups (l : List α) :
    l.eraseDups.Pairwise fun a b => l.idxOf a < l.idxOf b := by
  induction l using reverseRecOn with
  | nil => exact .nil
  | append_singleton l x ih =>
    have hold {a : α} (ha : a ∈ l.eraseDups) : (l ++ [x]).idxOf a = l.idxOf a :=
      idxOf_append_of_mem (mem_eraseDups.mp ha)
    have hlt {a : α} (ha : a ∈ l.eraseDups) : l.idxOf a < l.length :=
      idxOf_lt_length_of_mem (mem_eraseDups.mp ha)
    rw [eraseDups_append]
    by_cases hx : x ∈ l
    · have hnone : [x].removeAll l = [] := by simp [removeAll, hx]
      rw [hnone, eraseDups_nil, append_nil]
      exact ih.imp_of_mem fun ha hb hab => by rwa [hold ha, hold hb]
    · have hone : [x].removeAll l = [x] := by simp [removeAll, hx]
      have hnew : (l ++ [x]).idxOf x = l.length := by
        rw [idxOf_append_of_notMem hx, idxOf_cons_self, Nat.add_zero]
      rw [hone, eraseDups_cons, filter_nil, eraseDups_nil, pairwise_append]
      refine ⟨ih.imp_of_mem fun ha hb hab => by rwa [hold ha, hold hb],
        pairwise_singleton _ _, fun a ha b hb => ?_⟩
      obtain rfl := mem_singleton.mp hb
      rw [hold ha, hnew]
      exact hlt ha

theorem nodup_eraseDups (l : List α) : l.eraseDups.Nodup :=
  (pairwise_idxOf_eraseDups l).imp fun hlt heq => Nat.ne_of_lt hlt (congrArg l.idxOf heq)

/-- One of two entries comes first in a list without repetitions. -/
theorem idxOf_lt_of_sublist {a b : α} (hnodup : l.Nodup) (h : [a, b].Sublist l) :
    l.idxOf a < l.idxOf b := by
  have hpairwise : l.Pairwise fun a b => l.idxOf a < l.idxOf b := by
    refine pairwise_iff_getElem.mpr fun i j hi hj hij => ?_
    rwa [hnodup.idxOf_getElem, hnodup.idxOf_getElem]
  exact pairwise_iff_forall_sublist.mp hpairwise h

end Repetitions

/-- Behind the first entry of an ordered list is what has a lesser one. -/
theorem mem_drop_one_iff [Preorder β] {f : α → β} (h : l.Pairwise fun a b => f a < f b) {a : α} :
    a ∈ l.drop 1 ↔ a ∈ l ∧ ∃ b ∈ l, f b < f a := by
  cases l with
  | nil => exact ⟨nofun, fun h => h.1⟩
  | cons first rest =>
    rw [drop_succ_cons, drop_zero]
    constructor
    · exact fun ha => ⟨mem_cons_of_mem first ha, first, mem_cons_self, rel_of_pairwise_cons h ha⟩
    · rintro ⟨ha, b, hb, hlt⟩
      refine (mem_cons.mp ha).resolve_left ?_
      rintro rfl
      rcases mem_cons.mp hb with rfl | hb
      · exact lt_irrefl _ hlt
      · exact lt_asymm hlt (rel_of_pairwise_cons h hb)

/-- What keeps entries as they are or leaves them out keeps their order. -/
theorem filterMap_sublist {f : α → Option α} (hf : ∀ x y, f x = some y → y = x) (l : List α) :
    (l.filterMap f).Sublist l := by
  induction l with
  | nil => exact .slnil
  | cons x l ih =>
    rw [filterMap_cons]
    cases hx : f x with
    | none => exact ih.cons x
    | some y =>
      obtain rfl := hf x y hx
      exact ih.cons_cons y

/-! ### Lists side by side -/

theorem exists_mem_zip_left (h : l.length = l'.length) {x : α} (hx : x ∈ l) :
    ∃ y, (x, y) ∈ l.zip l' := by
  rw [← map_fst_zip (Nat.le_of_eq h)] at hx
  obtain ⟨⟨_, y⟩, hmem, rfl⟩ := mem_map.mp hx
  exact ⟨y, hmem⟩

theorem exists_mem_zip_right (h : l.length = l'.length) {y : β} (hy : y ∈ l') :
    ∃ x, (x, y) ∈ l.zip l' := by
  rw [← map_snd_zip (Nat.le_of_eq h.symm)] at hy
  obtain ⟨⟨x, _⟩, hmem, rfl⟩ := mem_map.mp hy
  exact ⟨x, hmem⟩

theorem Forall₂.exists_right (h : Forall₂ R l l') {x : α} (hx : x ∈ l) : ∃ y ∈ l', R x y := by
  obtain ⟨hlength, hzip⟩ := forall₂_iff_zip.mp h
  obtain ⟨y, hxy⟩ := exists_mem_zip_left hlength hx
  exact ⟨y, (of_mem_zip hxy).2, hzip hxy⟩

theorem Forall₂.exists_left (h : Forall₂ R l l') {y : β} (hy : y ∈ l') : ∃ x ∈ l, R x y := by
  obtain ⟨x, hx, hxy⟩ := h.flip.exists_right hy
  exact ⟨x, hx, hxy⟩

/-- The last entries are related, if there are any. -/
theorem Forall₂.getLast? (h : Forall₂ R l l') : Option.Rel R l.getLast? l'.getLast? := by
  rw [getLast?_eq_head?_reverse, getLast?_eq_head?_reverse]
  have hreverse := forall₂_reverse_iff.mpr h
  generalize l.reverse = m, l'.reverse = m' at hreverse ⊢
  cases hreverse with
  | nil => exact .none
  | cons h _ => exact .some h

/-! ### Checks of all entries -/

/-- Checks that pass give one result for each entry. -/
theorem mapM_eq_ok_iff {f : α → Except ε β} {results : List β} :
    l.mapM f = .ok results ↔ Forall₂ (fun x result => f x = .ok result) l results := by
  induction l generalizing results with
  | nil => simp [pure, Except.pure, forall₂_nil_left_iff, eq_comm]
  | cons x l ih =>
    rw [mapM_cons, forall₂_cons_left_iff]
    cases hx : f x with
    | error e => simp [bind, Except.bind]
    | ok first =>
      cases hl : l.mapM f with
      | error e => simp [bind, Except.bind, ← ih, hl]
      | ok rest => simp [bind, Except.bind, pure, Except.pure, ← ih, hl, eq_comm]

/-- A list of checks passes exactly if each of them does. -/
theorem isOk_mapM_iff {f : α → Except ε β} :
    (∃ results, l.mapM f = .ok results) ↔ ∀ x ∈ l, ∃ result, f x = .ok result := by
  constructor
  · rintro ⟨results, h⟩ x hx
    obtain ⟨result, -, hresult⟩ := (mapM_eq_ok_iff.mp h).exists_right hx
    exact ⟨result, hresult⟩
  · intro h
    induction l with
    | nil => exact ⟨[], rfl⟩
    | cons x l ih =>
      obtain ⟨⟨first, hfirst⟩, hrest⟩ := forall_mem_cons.mp h
      obtain ⟨rest, hrest⟩ := ih hrest
      exact ⟨first :: rest, mapM_eq_ok_iff.mpr (.cons hfirst (mapM_eq_ok_iff.mp hrest))⟩

end List
