import InteropGraph.Text.Basic
import Mathlib.Data.List.DropRight

/-!
# Trimming, splitting and cutting

What trimming, splitting and cutting do to a text that has been put together in a certain way, and
how a text has been put together when that is what they do.
-/

namespace InteropGraph.Text

variable {sep : Char} {p : Char → Bool} {s start before after rest : List Char}

/-! ### Splitting -/

/-- A text is split at the first separator, if there is one. -/
theorem splitOn_cases (sep : Char) (s : List Char) :
    (sep ∉ s ∧ s.splitOn sep = [s]) ∨
      ∃ before after, sep ∉ before ∧ s = before ++ sep :: after ∧
        s.splitOn sep = before :: after.splitOn sep := by
  by_cases h : sep ∈ s
  · obtain ⟨before, after, rfl, hbefore⟩ := List.eq_append_cons_of_mem h
    exact .inr ⟨before, after, hbefore, rfl,
      List.splitOn_append_cons_self_of_not_mem hbefore after⟩
  · exact .inl ⟨h, List.splitOn_eq_singleton h⟩

/-- The parts have everything but the separators. -/
theorem flatten_splitOn (sep : Char) (s : List Char) :
    (s.splitOn sep).flatten = s.filter (· ≠ sep) := by
  induction s with
  | nil => rfl
  | cons c s ih =>
    rw [List.splitOn_cons_eq_if_modifyHead]
    by_cases hc : c = sep
    · rw [if_pos (beq_iff_eq.mpr hc), List.flatten_cons, ih,
        List.filter_cons_of_neg (by simpa using hc)]
      rfl
    · rw [if_neg (mt beq_iff_eq.mp hc), List.filter_cons_of_pos (by simpa using hc), ← ih]
      -- the character joins the first part, and there always is one
      cases h : s.splitOn sep with
      | nil => exact absurd h (List.splitOn_ne_nil sep s)
      | cons part parts => rfl

/-! ### Cutting -/

theorem cut_of_not_mem (h : sep ∉ s) : cut sep s = (s, none) := by
  induction s with
  | nil => rfl
  | cons c s ih =>
    have hc : c ≠ sep := (List.ne_of_not_mem_cons h).symm
    rw [cut, if_neg hc, ih (List.not_mem_of_not_mem_cons h)]

theorem cut_append (h : sep ∉ s) (rest : List Char) :
    cut sep (s ++ sep :: rest) = (s, some rest) := by
  induction s with
  | nil => exact if_pos rfl
  | cons c s ih =>
    have hc : c ≠ sep := (List.ne_of_not_mem_cons h).symm
    rw [List.cons_append, cut, if_neg hc, ih (List.not_mem_of_not_mem_cons h)]

/-- A text has been cut at the first separator, if there is one. -/
theorem cut_cases (sep : Char) (s : List Char) :
    (sep ∉ s ∧ cut sep s = (s, none)) ∨
      ∃ before after, sep ∉ before ∧ s = before ++ sep :: after ∧
        cut sep s = (before, some after) := by
  by_cases h : sep ∈ s
  · obtain ⟨before, after, rfl, hbefore⟩ := List.eq_append_cons_of_mem h
    exact .inr ⟨before, after, hbefore, rfl, cut_append hbefore after⟩
  · exact .inl ⟨h, cut_of_not_mem h⟩

/-! ### The start of a text -/

theorem withoutStart_append (start s : List Char) : withoutStart start (start ++ s) = s := by
  rw [withoutStart, List.isPrefixOf?_eq_some_iff_append_eq.mpr rfl, Option.getD_some]

theorem withoutStart_of_not_isPrefix (h : ¬start <+: s) : withoutStart start s = s := by
  unfold withoutStart
  cases hrest : start.isPrefixOf? s with
  | none => rfl
  | some rest => exact absurd ⟨rest, List.append_eq_of_isPrefixOf?_eq_some hrest⟩ h

theorem withoutStart_cases (start s : List Char) :
    s = start ++ withoutStart start s ∨ withoutStart start s = s := by
  unfold withoutStart
  cases h : start.isPrefixOf? s with
  | none => exact .inr rfl
  | some rest => exact .inl (List.append_eq_of_isPrefixOf?_eq_some h).symm

/-! ### Trimming -/

/-- Dropping the end is dropping the beginning of the reverse. -/
theorem dropTrailing_eq_rdropWhile (p : Char → Bool) (s : List Char) :
    dropTrailing p s = s.rdropWhile p := rfl

theorem exists_eq_dropTrailing_append (p : Char → Bool) (s : List Char) :
    ∃ dropped, s = dropTrailing p s ++ dropped ∧ ∀ c ∈ dropped, p c = true :=
  ⟨s.rtakeWhile p, (List.rdropWhile_append_rtakeWhile (p := p) (l := s)).symm,
    fun _ => List.mem_rtakeWhile_imp⟩

theorem dropTrailing_append (h : ∀ c ∈ rest, p c = true) (s : List Char) :
    dropTrailing p (s ++ rest) = dropTrailing p s := by
  unfold dropTrailing
  rw [List.reverse_append, List.dropWhile_append_of_pos fun c hc => h c (List.mem_reverse.mp hc)]

theorem dropTrailing_of_not (h : ∀ c ∈ s, p c = false) : dropTrailing p s = s := by
  rw [dropTrailing_eq_rdropWhile, List.rdropWhile_eq_self_iff]
  intro hne
  rw [h _ (List.getLast_mem hne)]
  exact Bool.false_ne_true

/-- The blanks around a text without blanks are trimmed, and no more than that. -/
theorem trim_surrounded (hbefore : ∀ c ∈ before, isBlank c = true)
    (hafter : ∀ c ∈ after, isBlank c = true) (hs : ∀ c ∈ s, isBlank c = false) :
    trim (before ++ s ++ after) = s := by
  unfold trim
  rw [List.append_assoc, List.dropWhile_append_of_pos hbefore]
  cases s with
  | nil =>
    rw [List.nil_append, List.dropWhile_eq_nil_iff.mpr hafter]
    rfl
  | cons c s =>
    have hc : ¬isBlank c = true := by
      rw [hs c List.mem_cons_self]
      exact Bool.false_ne_true
    rw [List.cons_append, List.dropWhile_cons_of_neg hc, ← List.cons_append,
      dropTrailing_append hafter, dropTrailing_of_not hs]

/-- What is trimmed are blanks on both sides. -/
theorem exists_eq_surrounded_trim (s : List Char) : ∃ before after,
    (∀ c ∈ before, isBlank c = true) ∧ (∀ c ∈ after, isBlank c = true) ∧
      s = before ++ trim s ++ after := by
  obtain ⟨after, hafter, hblank⟩ := exists_eq_dropTrailing_append isBlank (s.dropWhile isBlank)
  refine ⟨s.takeWhile isBlank, after, fun c => List.mem_takeWhile_imp, hblank, ?_⟩
  rw [List.append_assoc]
  show s = s.takeWhile isBlank ++ (dropTrailing isBlank (s.dropWhile isBlank) ++ after)
  rw [← hafter, List.takeWhile_append_dropWhile]

/-! ### Numbers -/

theorem isDigit_of_mem_zeros_toDigits {c : Char} {zeros n : Nat}
    (h : c ∈ List.replicate zeros '0' ++ Nat.toDigits 10 n) : c.isDigit = true := by
  rcases List.mem_append.mp h with h | h
  · rw [List.eq_of_mem_replicate h]
    rfl
  · exact Nat.isDigit_of_mem_toDigits (by decide) (by decide) h

theorem exists_toDigits_eq_singleton {c : Char} (h : c.isDigit = true) :
    ∃ d < 10, [c] = Nat.toDigits 10 d := by
  obtain ⟨hlow, hhigh⟩ := Char.isDigit_iff_toNat.mp h
  simp only [Char.reduceToNat] at hlow hhigh
  have hchar : ∀ d < 10, Nat.digitChar d = Char.ofNat (48 + d) := by decide
  have hd : c.toNat - 48 < 10 := by omega
  refine ⟨c.toNat - 48, hd, ?_⟩
  rw [Nat.toDigits_of_lt_base hd, hchar _ hd, Nat.add_sub_cancel' hlow, Char.ofNat_toNat]

/-- Digits are zeros in front of a number. -/
theorem exists_eq_zeros_toDigits (hne : s ≠ []) (h : ∀ c ∈ s, c.isDigit = true) :
    ∃ zeros n, s = List.replicate zeros '0' ++ Nat.toDigits 10 n := by
  induction s using List.reverseRecOn with
  | nil => exact absurd rfl hne
  | append_singleton s c ih =>
    obtain ⟨d, hd, hc⟩ :=
      exists_toDigits_eq_singleton (h c (List.mem_append_right _ List.mem_cons_self))
    by_cases hs : s = []
    · exact ⟨0, d, by rw [hs, hc]; rfl⟩
    · obtain ⟨zeros, n, rfl⟩ := ih hs fun c hc => h c (List.mem_append_left _ hc)
      cases n with
      | zero =>
        -- a zero that stands before another digit is a leading one
        refine ⟨zeros + 1, d, ?_⟩
        rw [hc, List.replicate_succ']
        rfl
      | succ n =>
        refine ⟨zeros, 10 * (n + 1) + d, ?_⟩
        rw [hc, List.append_assoc, Nat.toDigits_append_toDigits (by decide) (Nat.succ_pos n) hd]

/-- Digits stand for a number exactly if they are the number with zeros in front of it. -/
theorem digits?_eq_some_iff {n : Nat} :
    digits? s = some n ↔ ∃ zeros, s = List.replicate zeros '0' ++ Nat.toDigits 10 n := by
  have hread (zeros n : Nat) :
      digits? (List.replicate zeros '0' ++ Nat.toDigits 10 n) = some n := by
    have hne : List.replicate zeros '0' ++ Nat.toDigits 10 n ≠ [] := fun h =>
      Nat.toDigits_ne_nil (List.append_eq_nil_iff.mp h).2
    have hdigits : (List.replicate zeros '0' ++ Nat.toDigits 10 n).all Char.isDigit = true :=
      List.all_eq_true.mpr fun _ => isDigit_of_mem_zeros_toDigits
    unfold digits?
    rw [if_pos ⟨hne, hdigits⟩, ← Nat.ofDigitChars_eq_foldl, Nat.ofDigitChars_append,
      Nat.ofDigitChars_replicate_zero, Nat.mul_zero, Nat.ofDigitChars_ten_toDigits]
  constructor
  · intro h
    have hdigits : s ≠ [] ∧ s.all Char.isDigit = true := by
      by_contra hnot
      rw [digits?, if_neg hnot] at h
      cases h
    obtain ⟨zeros, m, rfl⟩ := exists_eq_zeros_toDigits hdigits.1 (List.all_eq_true.mp hdigits.2)
    rw [hread] at h
    exact ⟨zeros, by rw [Option.some.inj h]⟩
  · rintro ⟨zeros, rfl⟩
    exact hread zeros n

end InteropGraph.Text
