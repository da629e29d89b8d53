import InteropGraph.Naming.Tokens
import Mathlib

/-!
# Tokens letter by letter

How many letters at the start of a token are put into lower case is counted once, from its run of
capitals and what comes behind it. `lowerStart_eq_letterByLetter` says that this is the same as
going through the letters with a look at the next one. A normalized token begins with no capital,
and its ending has been written once and for all; so it is its own normal form
(`normalizeToken_normalizeToken`).

Mathlib is imported whole for the lemmas on the case of ASCII letters, which none of its smaller
modules gives.
-/

namespace InteropGraph.Naming

variable {run rest s ending : List Char} {c : Char}

/-! ### Runs of capitals -/

/-- There are only capitals. -/
def OnlyCapitals (s : List Char) : Prop :=
  ∀ c ∈ s, c.isUpper = true

/-- The first letter, if there is one, is no capital. -/
def BeginsSmall (s : List Char) : Prop :=
  ∀ c ∈ s.head?, c.isUpper = false

theorem onlyCapitals_cons : OnlyCapitals (c :: s) ↔ c.isUpper = true ∧ OnlyCapitals s :=
  List.forall_mem_cons

theorem beginsSmall_cons (h : c.isUpper = false) (s : List Char) : BeginsSmall (c :: s) := by
  intro d hd
  rw [← Option.some.inj hd]
  exact h

/-- A run of capitals ends where a letter follows that is none. -/
theorem takeWhile_capitals (hrun : OnlyCapitals run) (hrest : BeginsSmall rest) :
    (run ++ rest).takeWhile Char.isUpper = run := by
  rw [List.takeWhile_append_of_pos hrun]
  cases rest with
  | nil => exact List.append_nil run
  | cons c rest =>
    rw [List.takeWhile_cons_of_neg (Bool.eq_false_iff.mp (hrest c rfl)), List.append_nil]

theorem dropWhile_capitals (hrun : OnlyCapitals run) (hrest : BeginsSmall rest) :
    (run ++ rest).dropWhile Char.isUpper = rest := by
  rw [List.dropWhile_append_of_pos hrun]
  cases rest with
  | nil => rfl
  | cons c rest => exact List.dropWhile_cons_of_neg (Bool.eq_false_iff.mp (hrest c rfl))

/-- A token is a run of capitals and a rest that begins with none. -/
theorem exists_eq_capitals_append (token : List Char) :
    ∃ run rest, token = run ++ rest ∧ OnlyCapitals run ∧ BeginsSmall rest := by
  refine ⟨token.takeWhile Char.isUpper, token.dropWhile Char.isUpper,
    List.takeWhile_append_dropWhile.symm, fun c => List.mem_takeWhile_imp, fun c hc => ?_⟩
  have hnot := List.head?_dropWhile_not Char.isUpper token
  rw [Option.mem_def.mp hc] at hnot
  exact hnot

/-! ### The start of a token -/

/-- `s` with its first `n` letters in lower case. -/
def lowerFirst (n : Nat) (s : List Char) : List Char :=
  (s.take n).map Char.toLower ++ s.drop n

theorem lowerStart_eq (token : List Char) :
    lowerStart token = lowerFirst (lowerCount token) token := rfl

theorem lowerFirst_zero (s : List Char) : lowerFirst 0 s = s := rfl

theorem lowerFirst_succ (n : Nat) (c : Char) (s : List Char) :
    lowerFirst (n + 1) (c :: s) = c.toLower :: lowerFirst n s := rfl

/-- The letters of the run are put into lower case, and those behind it are not. -/
theorem lowerFirst_length_append (run rest : List Char) :
    lowerFirst run.length (run ++ rest) = run.map Char.toLower ++ rest := by
  rw [lowerFirst, List.take_left, List.drop_left]

theorem length_lowerFirst (n : Nat) (s : List Char) : (lowerFirst n s).length = s.length := by
  rw [lowerFirst, List.length_append, List.length_map, ← List.length_append, List.take_append_drop]

/-- The count depends on the length of the run and on what comes behind it. -/
theorem lowerCount_append (hrun : OnlyCapitals run) (hrest : BeginsSmall rest) :
    lowerCount (run ++ rest) =
      if 1 < run.length ∧ rest ≠ ['s'] ∧ !atWordEnd rest then run.length - 1 else run.length := by
  unfold lowerCount
  dsimp only
  rw [takeWhile_capitals hrun hrest, List.drop_left]

/-- A word ends before a capital. -/
theorem atWordEnd_of_isUpper (h : c.isUpper = true) (s : List Char) :
    atWordEnd (c :: s) = true := by
  rw [atWordEnd, Bool.not_eq_true', ← Bool.not_eq_true]
  exact Char.not_isLower_of_isUpper h

/-- Capitals at the start of a text in lower case, one after the other, up to one that stands before
a lowercase letter. -/
def lowerCapitals : List Char → List Char
  | [] => []
  | c :: s => if c.isUpper && atWordEnd s then c.toLower :: lowerCapitals s else c :: s

/-- The first letter of a token in lower case if it is a capital, and then the capitals that
follow. -/
def lowerFirstWord : List Char → List Char
  | [] => []
  | c :: s => if c.isUpper then c.toLower :: lowerCapitals s else c :: s

/-- A token with the letters of its first word in lower case, as long as they are capitals. If a
single `s` is all that stands behind a run of capitals, it is no word, and the whole run is put into
lower case. -/
def letterByLetter (token : List Char) : List Char :=
  if token.dropWhile Char.isUpper = ['s'] then
    (token.takeWhile Char.isUpper).map Char.toLower ++ ['s']
  else lowerFirstWord token

/-- A token that does not begin with a capital has no run. -/
theorem lowerCapitals_of_beginsSmall (h : BeginsSmall s) : lowerCapitals s = s := by
  cases s with
  | nil => rfl
  | cons c s =>
    rw [lowerCapitals, h c rfl]
    rfl

/-- Going through a run of capitals leaves the last one if a lowercase letter comes behind it. -/
theorem lowerCapitals_append (hrun : OnlyCapitals run) (hrest : BeginsSmall rest) :
    lowerCapitals (run ++ rest) =
      lowerFirst (if atWordEnd rest then run.length else run.length - 1) (run ++ rest) := by
  induction run with
  | nil =>
    rw [List.nil_append, lowerCapitals_of_beginsSmall hrest, List.length_nil, Nat.zero_sub,
      ite_self, lowerFirst_zero]
  | cons c run ih =>
    obtain ⟨hc, hrun'⟩ := onlyCapitals_cons.mp hrun
    rw [List.cons_append, lowerCapitals, hc, Bool.true_and]
    cases run with
    | nil =>
      rw [List.nil_append, lowerCapitals_of_beginsSmall hrest]
      split <;> rfl
    | cons d run =>
      have hend : atWordEnd (d :: run ++ rest) = true :=
        atWordEnd_of_isUpper (onlyCapitals_cons.mp hrun').1 _
      rw [if_pos hend, ih hrun']
      split <;> rfl

/-- The first capital is always put into lower case, and the others up to the next word. -/
theorem lowerFirstWord_append (hrun : OnlyCapitals run) (hrest : BeginsSmall rest) :
    lowerFirstWord (run ++ rest) =
      lowerFirst (if 1 < run.length ∧ !atWordEnd rest then run.length - 1 else run.length)
        (run ++ rest) := by
  cases run with
  | nil =>
    rw [if_neg fun h => Nat.not_lt_zero 1 h.1, List.nil_append, List.length_nil, lowerFirst_zero]
    cases rest with
    | nil => rfl
    | cons c rest =>
      rw [lowerFirstWord, hrest c rfl]
      rfl
  | cons c run =>
    obtain ⟨hc, hrun'⟩ := onlyCapitals_cons.mp hrun
    rw [List.cons_append, lowerFirstWord, if_pos hc, lowerCapitals_append hrun' hrest,
      ← lowerFirst_succ, List.length_cons]
    congr 1
    cases atWordEnd rest with
    | true => simp
    | false =>
      simp only [Bool.false_eq_true, if_false, Bool.not_false, and_true]
      split <;> omega

/-- Counting the run of capitals and going through it letter by letter give the same. -/
theorem lowerStart_eq_letterByLetter (token : List Char) :
    lowerStart token = letterByLetter token := by
  obtain ⟨run, rest, rfl, hrun, hrest⟩ := exists_eq_capitals_append token
  rw [lowerStart_eq, lowerCount_append hrun hrest, letterByLetter, dropWhile_capitals hrun hrest,
    takeWhile_capitals hrun hrest]
  by_cases hs : rest = ['s']
  · rw [if_pos hs, if_neg fun h => h.2.1 hs, lowerFirst_length_append, hs]
  · rw [if_neg hs, lowerFirstWord_append hrun hrest]
    simp only [ne_eq, hs, not_false_eq_true, true_and]

/-- The first letter is put into lower case if it is a capital, whatever follows. -/
theorem beginsSmall_letterByLetter (token : List Char) : BeginsSmall (letterByLetter token) := by
  unfold letterByLetter
  split
  next =>
    cases token.takeWhile Char.isUpper with
    | nil => exact beginsSmall_cons rfl []
    | cons c run => exact beginsSmall_cons (Char.isUpper_toLower_eq_false c) _
  next =>
    cases token with
    | nil => exact nofun
    | cons c s =>
      rw [lowerFirstWord]
      split
      next => exact beginsSmall_cons (Char.isUpper_toLower_eq_false c) _
      next hc => exact beginsSmall_cons (Bool.eq_false_iff.mpr hc) s

/-- A token that does not begin with a capital stays as it is at its start. -/
theorem lowerStart_of_beginsSmall (h : BeginsSmall s) : lowerStart s = s := by
  have hnone : OnlyCapitals [] := nofun
  have hcount := lowerCount_append hnone h
  rw [if_neg fun h => Nat.not_lt_zero 1 h.1] at hcount
  rw [lowerStart_eq]
  exact congrArg (lowerFirst · s) hcount

/-! ### Endings -/

/-- An ending is replaced behind something else. -/
theorem replaceEnding_append (h : s ≠ []) (ending instead : List Char) :
    replaceEnding ending instead (s ++ ending) = some (s ++ instead) := by
  have hlength : ending.length < (s ++ ending).length := by
    rw [List.length_append]
    exact Nat.lt_add_of_pos_left (List.length_pos_iff.mpr h)
  rw [replaceEnding, if_pos ⟨hlength, List.suffix_append s ending⟩, List.length_append,
    Nat.add_sub_cancel, List.take_left]

/-- Nothing is replaced in a text that does not end so. -/
theorem replaceEnding_eq_none (h : ∀ t, t ≠ [] → s ≠ t ++ ending) (instead : List Char) :
    replaceEnding ending instead s = none := by
  refine if_neg ?_
  rintro ⟨hlength, t, rfl⟩
  refine h t ?_ rfl
  rintro rfl
  exact Nat.lt_irrefl _ hlength

/-- How an abbreviation that ends a token is written, if something comes before it. -/
inductive EndingWritten : List Char → List Char → Prop
  | url {t : List Char} (h : t ≠ []) : EndingWritten (t ++ "Url".toList) (t ++ "URL".toList)
  | id {t : List Char} (h : t ≠ []) : EndingWritten (t ++ "Id".toList) (t ++ "ID".toList)
  | other {token : List Char} (hurl : ∀ t, t ≠ [] → token ≠ t ++ "Url".toList)
      (hid : ∀ t, t ≠ [] → token ≠ t ++ "Id".toList) : EndingWritten token token

/-- Endings with different last letters make different texts. -/
theorem append_ne_append {t u e e' : List Char} (a b : Char) (ha : e.getLast? = some a)
    (hb : e'.getLast? = some b) (h : a ≠ b) : t ++ e ≠ u ++ e' := by
  intro heq
  have hlast := congrArg List.getLast? heq
  rw [List.getLast?_append, List.getLast?_append, ha, hb] at hlast
  exact h (Option.some.inj hlast)

/-- There is one way to write the ending of a text, and it is the computed one. -/
theorem endingWritten_iff {t : List Char} : EndingWritten s t ↔ capitalizeEnding s = t := by
  constructor
  · intro h
    cases h with
    | url h => rw [capitalizeEnding, replaceEnding_append h]
    | @id u h =>
      have hurl : ∀ t, t ≠ [] → u ++ "Id".toList ≠ t ++ "Url".toList :=
        fun _ _ => append_ne_append 'd' 'l' rfl rfl (by decide)
      rw [capitalizeEnding, replaceEnding_eq_none hurl, replaceEnding_append h]
      rfl
    | other hurl hid =>
      rw [capitalizeEnding, replaceEnding_eq_none hurl, replaceEnding_eq_none hid]
      rfl
  · rintro rfl
    by_cases hurl : ∃ t, t ≠ [] ∧ s = t ++ "Url".toList
    · obtain ⟨t, ht, rfl⟩ := hurl
      rw [capitalizeEnding, replaceEnding_append ht]
      exact .url ht
    · have hurl' : ∀ t, t ≠ [] → s ≠ t ++ "Url".toList := fun t ht hs => hurl ⟨t, ht, hs⟩
      by_cases hid : ∃ t, t ≠ [] ∧ s = t ++ "Id".toList
      · obtain ⟨t, ht, rfl⟩ := hid
        rw [capitalizeEnding, replaceEnding_eq_none hurl', replaceEnding_append ht]
        exact .id ht
      · have hid' : ∀ t, t ≠ [] → s ≠ t ++ "Id".toList := fun t ht hs => hid ⟨t, ht, hs⟩
        rw [capitalizeEnding, replaceEnding_eq_none hurl', replaceEnding_eq_none hid']
        exact .other hurl' hid'

theorem endingWritten_capitalizeEnding (s : List Char) : EndingWritten s (capitalizeEnding s) :=
  endingWritten_iff.mpr rfl

theorem EndingWritten.length_eq {t : List Char} (h : EndingWritten s t) : t.length = s.length := by
  cases h with
  | url =>
    have hlength : "URL".toList.length = "Url".toList.length := by decide
    rw [List.length_append, List.length_append, hlength]
  | id =>
    have hlength : "ID".toList.length = "Id".toList.length := by decide
    rw [List.length_append, List.length_append, hlength]
  | other => rfl

/-- An ending is never all of a token, so that the first letter stays. -/
theorem EndingWritten.head?_eq {t : List Char} (h : EndingWritten s t) : t.head? = s.head? := by
  cases h with
  | url h => rw [List.head?_append_of_ne_nil _ h, List.head?_append_of_ne_nil _ h]
  | id h => rw [List.head?_append_of_ne_nil _ h, List.head?_append_of_ne_nil _ h]
  | other => rfl

/-- What has been written stays as it is. -/
theorem EndingWritten.self {t : List Char} (h : EndingWritten s t) : EndingWritten t t := by
  cases h with
  | url =>
    exact .other (fun _ _ => append_ne_append 'L' 'l' rfl rfl (by decide))
      fun _ _ => append_ne_append 'L' 'd' rfl rfl (by decide)
  | id =>
    exact .other (fun _ _ => append_ne_append 'D' 'l' rfl rfl (by decide))
      fun _ _ => append_ne_append 'D' 'd' rfl rfl (by decide)
  | other hurl hid => exact .other hurl hid

/-! ### Normal forms -/

/-- A token is normalized at its start and then at its end. -/
theorem endingWritten_normalizeToken (token : List Char) :
    EndingWritten (letterByLetter token) (normalizeToken token) := by
  rw [← lowerStart_eq_letterByLetter]
  exact endingWritten_capitalizeEnding (lowerStart token)

/-- Letters are exchanged one by one. -/
theorem length_normalizeToken (token : List Char) :
    (normalizeToken token).length = token.length := by
  rw [normalizeToken, (endingWritten_capitalizeEnding _).length_eq, lowerStart_eq,
    length_lowerFirst]

/-- What is normalized begins with no capital. -/
theorem beginsSmall_normalizeToken (token : List Char) : BeginsSmall (normalizeToken token) := by
  unfold BeginsSmall
  rw [(endingWritten_normalizeToken token).head?_eq]
  exact beginsSmall_letterByLetter token

/-- A normalized token is its own normal form. -/
theorem normalizeToken_normalizeToken (token : List Char) :
    normalizeToken (normalizeToken token) = normalizeToken token := by
  have hstart : lowerStart (normalizeToken token) = normalizeToken token :=
    lowerStart_of_beginsSmall (beginsSmall_normalizeToken token)
  show capitalizeEnding (lowerStart (normalizeToken token)) = _
  rw [hstart]
  exact endingWritten_iff.mp (endingWritten_normalizeToken token).self

/-- **Tokens letter by letter.** Normalizing a token is the same as to put its first letter into
lower case, then the capitals that follow up to one that stands before a lowercase letter, or all of
them if a single `s` is what remains, and then to write `Url` or `Id` at its end in capitals. To
normalize a token once more changes nothing. -/
theorem normalizeToken_letterwise (token : List Char) :
    (∀ t, normalizeToken token = t ↔ EndingWritten (letterByLetter token) t) ∧
      normalizeToken (normalizeToken token) = normalizeToken token := by
  refine ⟨fun t => ?_, normalizeToken_normalizeToken token⟩
  rw [endingWritten_iff, ← lowerStart_eq_letterByLetter, normalizeToken]

example : normalizeToken "URLString".toList = "urlString".toList ∧
    normalizeToken "URLs".toList = "urls".toList ∧
    normalizeToken "ObjectId".toList = "objectID".toList := by
  decide

end InteropGraph.Naming
