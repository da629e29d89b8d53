import InteropGraph.Naming.Tokens
import InteropGraph.Proofs.Pass.Clashes

/-!
# When the tokens of a constructor are distinct

A token that is spelled for the second time is written with a number behind it, and so are all
later ones (`repeatMark`). So tokens that are spelled alike are written differently. Nothing keeps
such a number from making a token that is spelled in the selector itself: `tokens_distinct_iff`
says exactly when that happens.
-/

namespace InteropGraph.Naming

variable {before ts : List (List Char)} {t u : List Char} {m n : Nat}

/-! ### Numbers of repeats -/

/-- What is written behind the `n`th of the tokens that are spelled alike; nothing for the first. -/
def repeatMark (n : Nat) : List Char :=
  if n = 1 then [] else (toString n).toList

theorem repeatMark_one : repeatMark 1 = [] := rfl

theorem repeatMark_of_ne (h : n ≠ 1) : repeatMark n = (toString n).toList :=
  if_neg h

theorem repeatMark_ne_nil (h : n ≠ 1) : repeatMark n ≠ [] := by
  rw [repeatMark_of_ne h, Nat.toString_eq_ofList_toDigits, String.toList_ofList]
  exact Nat.toDigits_ne_nil

theorem repeatMark_inj (h : repeatMark m = repeatMark n) : m = n := by
  by_cases hm : m = 1
  · by_cases hn : n = 1
    · rw [hm, hn]
    · rw [hm, repeatMark_one] at h
      exact absurd h.symm (repeatMark_ne_nil hn)
  · by_cases hn : n = 1
    · rw [hn, repeatMark_one] at h
      exact absurd h (repeatMark_ne_nil hm)
    · rw [repeatMark_of_ne hm, repeatMark_of_ne hn] at h
      exact Nat.repr_injective (String.toList_inj.mp h)

/-- A number that continues some text is the same number, or is not left out. -/
theorem eq_or_lt_of_repeatMark_eq {d : List Char} (hm : 1 ≤ m)
    (h : repeatMark m = d ++ repeatMark n) : d = [] ∧ m = n ∨ d ≠ [] ∧ 1 < m := by
  by_cases hd : d = []
  · rw [hd, List.nil_append] at h
    exact .inl ⟨hd, repeatMark_inj h⟩
  · have hne : m ≠ 1 := by
      rintro rfl
      rw [repeatMark_one] at h
      exact hd (List.append_eq_nil_iff.mp h.symm).1
    exact .inr ⟨hd, by omega⟩

/-! ### Occurrences of tokens -/

/-- Each token with its number among those that are spelled alike, where the tokens `before` come
earlier. -/
def occurrences (before : List (List Char)) : List (List Char) → List (List Char × Nat)
  | [] => []
  | t :: ts => (t, before.count t + 1) :: occurrences (t :: before) ts

/-- Repeats are numbered by writing out the occurrences. -/
theorem numberRepeats_eq (before ts : List (List Char)) :
    numberRepeats before ts = (occurrences before ts).map fun o => o.1 ++ repeatMark o.2 := by
  induction ts generalizing before with
  | nil => rfl
  | cons t ts ih =>
    rw [numberRepeats, occurrences, List.map_cons, ih]
    congr 1
    unfold repeatMark
    by_cases h : before.count t + 1 = 1
    · rw [if_pos h, if_pos h, List.append_nil]
    · rw [if_neg h, if_neg h]

/-- A token occurs with as many numbers as it is spelled. -/
theorem mem_occurrences_iff : (t, n) ∈ occurrences before ts ↔
    before.count t < n ∧ n ≤ before.count t + ts.count t := by
  induction ts generalizing before with
  | nil =>
    rw [occurrences, List.count_nil]
    constructor
    · intro h
      cases h
    · rintro ⟨hlt, hle⟩
      omega
  | cons u ts ih =>
    rw [occurrences, List.mem_cons, ih]
    by_cases h : u = t
    · subst h
      rw [List.count_cons_self, List.count_cons_self, Prod.mk.injEq]
      constructor
      · rintro (⟨-, rfl⟩ | ⟨hlt, hle⟩) <;> omega
      · rintro ⟨hlt, hle⟩
        by_cases hn : n = before.count u + 1
        · exact .inl ⟨rfl, hn⟩
        · right
          omega
    · rw [List.count_cons_of_ne h, List.count_cons_of_ne h, Prod.mk.injEq]
      constructor
      · rintro (⟨rfl, -⟩ | hmem)
        · exact absurd rfl h
        · exact hmem
      · exact .inr

theorem mem_occurrences_nil_iff : (t, n) ∈ occurrences [] ts ↔ 1 ≤ n ∧ n ≤ ts.count t := by
  rw [mem_occurrences_iff, List.count_nil, Nat.zero_add]
  rfl

theorem nodup_occurrences (before ts : List (List Char)) : (occurrences before ts).Nodup := by
  induction ts generalizing before with
  | nil => exact .nil
  | cons t ts ih =>
    refine List.nodup_cons.mpr ⟨?_, ih (t :: before)⟩
    -- what comes later has a greater number
    rw [mem_occurrences_iff, List.count_cons_self]
    omega

/-- The tokens of a constructor as they are spelled, before repeats are numbered. -/
def spelledTokens (selector : String) (hasErrorParam : Bool) : List (List Char) :=
  dropLastIf hasErrorParam (plainTokens selector.toList)

/-- **Distinct tokens.** The tokens of a constructor are distinct unless one that is spelled at
least `m` times, written with the number `m`, makes the same text as another one. The other one is
then spelled like it with some more characters `d`, which are the number or the beginning of it; in
the latter case the other one is repeated too, and its number `n` is the rest. -/
theorem tokens_distinct_iff (selector : String) (hasErrorParam : Bool) :
    (constructorTokens selector hasErrorParam).Nodup ↔
      ∀ t d m n, d ≠ [] →
        1 < m → m ≤ (spelledTokens selector hasErrorParam).count t →
        1 ≤ n → n ≤ (spelledTokens selector hasErrorParam).count (t ++ d) →
        repeatMark m ≠ d ++ repeatMark n := by
  have hwritten : (constructorTokens selector hasErrorParam).Nodup ↔
      ∀ o ∈ occurrences [] (spelledTokens selector hasErrorParam),
        ∀ o' ∈ occurrences [] (spelledTokens selector hasErrorParam),
          o.1 ++ repeatMark o.2 = o'.1 ++ repeatMark o'.2 → o = o' := by
    show ((numberRepeats [] (spelledTokens selector hasErrorParam)).map String.ofList).Nodup ↔ _
    rw [List.nodup_map_iff fun _ _ => String.ofList_injective, numberRepeats_eq,
      List.nodup_map_iff_inj_on (nodup_occurrences _ _)]
  rw [hwritten]
  constructor
  · intro h t d m n hd hm hmt hn hnt hmark
    have hsame : (t, m) = (t ++ d, n) := by
      refine h _ (mem_occurrences_nil_iff.mpr ⟨Nat.le_of_lt hm, hmt⟩) _
        (mem_occurrences_nil_iff.mpr ⟨hn, hnt⟩) ?_
      rw [hmark, List.append_assoc]
    exact hd (List.self_eq_append_right.mp (congrArg Prod.fst hsame))
  · rintro h ⟨t, m⟩ ho ⟨u, n⟩ ho' halike
    obtain ⟨hm, hmt⟩ := mem_occurrences_nil_iff.mp ho
    obtain ⟨hn, hnu⟩ := mem_occurrences_nil_iff.mp ho'
    -- one of the two is spelled like the beginning of the other
    rcases List.append_eq_append_iff.mp halike with ⟨d, rfl, hmark⟩ | ⟨d, rfl, hmark⟩
    · rcases eq_or_lt_of_repeatMark_eq hm hmark with ⟨rfl, rfl⟩ | ⟨hd, hlt⟩
      · rw [List.append_nil]
      · exact absurd hmark (h t d m n hd hlt hmt hn hnu)
    · rcases eq_or_lt_of_repeatMark_eq hn hmark with ⟨rfl, rfl⟩ | ⟨hd, hlt⟩
      · rw [List.append_nil]
      · exact absurd hmark (h u d n m hd hlt hnu hm hmt)

/-- Two tokens are `value2`: the first one as it is spelled, the third one as the second `value`. -/
theorem value_numbered_twice :
    ¬(constructorTokens "initWithValue2:value:value:" false).Nodup := by
  decide

end InteropGraph.Naming
