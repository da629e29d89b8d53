import InteropGraph.Proofs.DroppedLabels
import InteropGraph.Proofs.NormalizedTokens

/-!
# What is cut off the selector of a constructor

The tokens of a constructor are made of what remains of its selector without the underscores, `init`
and `With` at its start. Only a method whose selector has `init` as a whole word is a constructor
(`exists_eq_of_init`), so a cut behind `init` is at the end of a word. `With` is cut off without a
look at what follows it. `cut_at_word_end_iff` says what comes of it: of a word that goes on with a
lowercase letter, as `Without` does, only the end becomes a token.
-/

namespace InteropGraph.Naming

variable {selector s word rest start : List Char}

/-! ### Ends of words -/

theorem atWordEnd_append (h : AtColon rest) (s : List Char) :
    atWordEnd (s ++ rest) = atWordEnd s := by
  cases s with
  | nil =>
    rcases h with rfl | ⟨labels, rfl⟩
    · rfl
    · rfl
  | cons c s => rfl

theorem afterWord?_isSome_iff :
    (afterWord? word s).isSome = true ↔ ∃ rest, s = word ++ rest ∧ atWordEnd rest = true := by
  unfold afterWord?
  constructor
  · intro h
    split at h
    next rest hrest =>
      split at h
      next hend => exact ⟨rest, (List.append_eq_of_isPrefixOf?_eq_some hrest).symm, hend⟩
      next => cases h
    next => cases h
  · rintro ⟨rest, rfl, hend⟩
    rw [List.isPrefixOf?_eq_some_iff_append_eq.mpr rfl]
    dsimp only
    rw [if_pos hend]
    rfl

/-! ### Selectors of constructors -/

/-- There are only underscores. -/
def OnlyUnderscores (s : List Char) : Prop :=
  ∀ c ∈ s, c = '_'

theorem exists_eq_underscores_append (selector : List Char) : ∃ underscores,
    OnlyUnderscores underscores ∧ selector = underscores ++ withoutUnderscores selector :=
  ⟨selector.takeWhile (· == '_'),
    fun _ hc => eq_of_beq (List.mem_takeWhile_imp (p := (· == '_')) hc),
    List.takeWhile_append_dropWhile.symm⟩

/-- Behind its underscores the selector of a constructor has `init` as its first word. -/
theorem exists_eq_of_init (h : familyOf selector = .init) :
    ∃ rest, withoutUnderscores selector = "init".toList ++ rest ∧ atWordEnd rest = true := by
  unfold familyOf at h
  split at h
  next w hw =>
    have hword := List.find?_some hw
    have hinit : w.1 = "init".toList := by
      have hmem := List.mem_of_find?_eq_some hw
      have hall : ∀ w ∈ familyWords, w.2 = .init → w.1 = "init".toList := by decide
      exact hall w hmem h
    rw [hinit] at hword
    exact afterWord?_isSome_iff.mp hword
  next => cases h

/-- The word behind `init` in the selector of a constructor, which ends at the first colon. -/
def wordAfterInit (selector : List Char) : List Char :=
  (Text.cut ':' (Text.withoutStart "init".toList (withoutUnderscores selector))).1

theorem exists_eq_wordAfterInit (h : familyOf selector = .init) : ∃ rest, AtColon rest ∧
    withoutUnderscores selector = "init".toList ++ (wordAfterInit selector ++ rest) ∧
    ':' ∉ wordAfterInit selector ∧ atWordEnd (wordAfterInit selector) = true := by
  obtain ⟨behind, hbehind, hend⟩ := exists_eq_of_init h
  have hword : wordAfterInit selector = (Text.cut ':' behind).1 := by
    rw [wordAfterInit, hbehind, Text.withoutStart_append]
  rw [hword, hbehind]
  rcases Text.cut_cases ':' behind with ⟨hcolon, hcut⟩ | ⟨word, labels, hcolon, rfl, hcut⟩
  · rw [hcut]
    exact ⟨[], .inl rfl, by rw [List.append_nil], hcolon, hend⟩
  · rw [hcut]
    have hlabels : AtColon (':' :: labels) := .inr ⟨labels, rfl⟩
    exact ⟨':' :: labels, hlabels, rfl, hcolon, (atWordEnd_append hlabels word).symm.trans hend⟩

/-! ### The cut -/

/-- Whether a text without a colon stands at the start is seen in the first part. -/
theorem isPrefix_append_atColon_iff (hstart : ':' ∉ start) (hrest : AtColon rest) :
    start <+: word ++ rest ↔ start <+: word := by
  constructor
  · rintro ⟨tail, htail⟩
    rcases List.append_eq_append_iff.mp htail with ⟨kept, rfl, -⟩ | ⟨behind, rfl, hbehind⟩
    · exact List.prefix_append start kept
    · cases behind with
      | nil => rw [List.append_nil]
      | cons c behind =>
        -- the start would go on behind the first part, and so with a colon
        rcases hrest with rfl | ⟨labels, rfl⟩
        · cases hbehind
        · obtain rfl := (List.cons.inj hbehind).1
          exact absurd (List.mem_append_right word List.mem_cons_self) hstart
  · exact fun h => h.trans (List.prefix_append word rest)

/-- A start without a colon is cut off within the first part. -/
theorem withoutStart_append_atColon (hstart : ':' ∉ start) (hrest : AtColon rest) :
    Text.withoutStart start (word ++ rest) = Text.withoutStart start word ++ rest := by
  by_cases h : start <+: word
  · obtain ⟨kept, rfl⟩ := h
    rw [List.append_assoc, Text.withoutStart_append, Text.withoutStart_append]
  · have hlong : ¬start <+: word ++ rest := mt (isPrefix_append_atColon_iff hstart hrest).mp h
    rw [Text.withoutStart_of_not_isPrefix h, Text.withoutStart_of_not_isPrefix hlong]

/-- What remains of the word behind `init` without `With` at its start. -/
def keptWord (word : List Char) : List Char :=
  Text.withoutStart "With".toList word

/-- A word that begins with `With` and goes on with a lowercase letter, as `Without` does. -/
def GoesOnFromWith (word : List Char) : Prop :=
  ∃ c s, word = "With".toList ++ c :: s ∧ c.isLower = true

theorem GoesOnFromWith.isPrefix (h : GoesOnFromWith word) : "With".toList <+: word := by
  obtain ⟨c, s, rfl, -⟩ := h
  exact List.prefix_append _ _

theorem GoesOnFromWith.keptWord_ne_nil (h : GoesOnFromWith word) : keptWord word ≠ [] := by
  obtain ⟨c, s, rfl, -⟩ := h
  rw [keptWord, Text.withoutStart_append]
  exact List.cons_ne_nil c s

/-- What remains begins in the middle of a word exactly if the word goes on from `With`. -/
theorem atWordEnd_keptWord_iff (h : atWordEnd word = true) :
    atWordEnd (keptWord word) = true ↔ ¬GoesOnFromWith word := by
  by_cases hwith : "With".toList <+: word
  · obtain ⟨kept, rfl⟩ := hwith
    rw [keptWord, Text.withoutStart_append]
    constructor
    · rintro hend ⟨c, s, hkept, hc⟩
      rw [List.append_cancel_left hkept, atWordEnd, hc] at hend
      cases hend
    · intro hnot
      cases kept with
      | nil => rfl
      | cons c s =>
        rw [atWordEnd, Bool.not_eq_true', ← Bool.not_eq_true]
        exact fun hc => hnot ⟨c, s, rfl, hc⟩
  · rw [keptWord, Text.withoutStart_of_not_isPrefix hwith]
    exact iff_of_true h (mt GoesOnFromWith.isPrefix hwith)

/-- The token of what remains is that of the whole word exactly if nothing is cut off. -/
theorem normalizeToken_keptWord_eq_iff :
    normalizeToken (keptWord word) = normalizeToken word ↔ ¬"With".toList <+: word := by
  constructor
  · rintro h ⟨kept, rfl⟩
    have hlength := congrArg List.length h
    rw [length_normalizeToken, length_normalizeToken, keptWord, Text.withoutStart_append,
      List.length_append] at hlength
    have hwith : "With".toList.length = 4 := by decide
    omega
  · intro h
    rw [keptWord, Text.withoutStart_of_not_isPrefix h]

/-- What is cut off are underscores and `init` or `initWith`. -/
theorem exists_eq_cut_append (h : familyOf selector = .init) : ∃ underscores cut,
    OnlyUnderscores underscores ∧ (cut = "init".toList ∨ cut = "initWith".toList) ∧
      selector = underscores ++ cut ++ afterInit selector := by
  obtain ⟨underscores, hunderscores, hselector⟩ := exists_eq_underscores_append selector
  obtain ⟨rest, hrest, -⟩ := exists_eq_of_init h
  have hafter : afterInit selector = Text.withoutStart "With".toList rest := by
    rw [afterInit, hrest, Text.withoutStart_append]
  rw [hrest] at hselector
  rcases Text.withoutStart_cases "With".toList rest with hcut | hcut
  · refine ⟨underscores, "initWith".toList, hunderscores, .inr rfl, ?_⟩
    have hwith : "initWith".toList = "init".toList ++ "With".toList := by decide
    rw [hafter, hwith, List.append_assoc, List.append_assoc, ← hcut]
    exact hselector
  · refine ⟨underscores, "init".toList, hunderscores, .inl rfl, ?_⟩
    rw [hafter, hcut, List.append_assoc]
    exact hselector

/-! ### The first token -/

theorem afterInit_eq (h : familyOf selector = .init) : ∃ rest, AtColon rest ∧
    afterInit selector = keptWord (wordAfterInit selector) ++ rest := by
  obtain ⟨rest, hrest, hselector, -, -⟩ := exists_eq_wordAfterInit h
  refine ⟨rest, hrest, ?_⟩
  rw [afterInit, hselector, Text.withoutStart_append,
    withoutStart_append_atColon (by decide) hrest, keptWord]

theorem partsOf_append_atColon (h : ':' ∉ s) (hne : s ≠ []) (hrest : AtColon rest) :
    ∃ parts, partsOf (s ++ rest) = s :: parts := by
  rcases hrest with rfl | ⟨labels, rfl⟩
  · exact ⟨[], by rw [List.append_nil, partsOf_of_not_mem h hne]⟩
  · exact ⟨partsOf labels, partsOf_append h hne labels⟩

theorem not_mem_keptWord (h : ':' ∉ word) : ':' ∉ keptWord word := by
  rcases Text.withoutStart_cases "With".toList word with hcut | hcut
  · rw [hcut] at h
    exact fun hmem => h (List.mem_append_right _ hmem)
  · rw [keptWord, hcut]
    exact h

/-- The first token has no number. -/
theorem numberRepeats_nil_cons (t : List Char) (ts : List (List Char)) :
    numberRepeats [] (t :: ts) = t :: numberRepeats [t] ts := by
  rw [numberRepeats, List.count_nil, if_pos rfl]

/-- The first token is spelled as what remains of the word behind `init`, if anything does. -/
theorem head?_constructorTokens {selector : String} (h : methodFamily selector = .init)
    (hne : keptWord (wordAfterInit selector.toList) ≠ []) :
    (constructorTokens selector false).head? =
      some (String.ofList (normalizeToken (keptWord (wordAfterInit selector.toList)))) := by
  obtain ⟨-, -, -, hcolon, -⟩ := exists_eq_wordAfterInit h
  obtain ⟨rest, hrest, hafter⟩ := afterInit_eq h
  obtain ⟨parts, hparts⟩ := partsOf_append_atColon (not_mem_keptWord hcolon) hne hrest
  show ((numberRepeats [] (plainTokens selector.toList)).map String.ofList).head? = _
  rw [plainTokens, hafter, hparts, List.map_cons, numberRepeats_nil_cons, List.map_cons,
    List.head?_cons]

/-- An error parameter takes nothing away but the last token, even if this is the first one. -/
theorem head?_constructorTokens_true {selector token : String}
    (h : token ∈ (constructorTokens selector true).head?) :
    token ∈ (constructorTokens selector false).head? := by
  rw [constructorTokens_true, List.head?_dropLast] at h
  split at h
  next => exact h
  next => cases h

/-- Whatever the first token is, it is spelled as what remains of the word behind `init`. -/
theorem eq_of_mem_head?_constructorTokens {selector token : String} {hasErrorParam : Bool}
    (h : methodFamily selector = .init) (hne : keptWord (wordAfterInit selector.toList) ≠ [])
    (htoken : token ∈ (constructorTokens selector hasErrorParam).head?) :
    token = String.ofList (normalizeToken (keptWord (wordAfterInit selector.toList))) := by
  have hwhole : token ∈ (constructorTokens selector false).head? := by
    cases hasErrorParam with
    | false => exact htoken
    | true => exact head?_constructorTokens_true htoken
  rw [head?_constructorTokens h hne] at hwhole
  exact (Option.some.inj hwhole).symm

/-- **What is cut off a constructor's selector.** Of the selector of a constructor underscores and
`init` or `initWith` are cut off. The cut is at the end of a word unless the word behind `init`
begins with `With` and goes on with a lowercase letter. The first token is made of what remains of
this word, if anything does, and this is the token of the whole word exactly if the word does not
begin with `With`. So the first token of a word that goes on from `With` is never that of the whole
word. -/
theorem cut_at_word_end_iff (selector : String) (h : methodFamily selector = .init) :
    let word := wordAfterInit selector.toList
    (∃ underscores cut, OnlyUnderscores underscores ∧
      (cut = "init".toList ∨ cut = "initWith".toList) ∧
      selector.toList = underscores ++ cut ++ afterInit selector.toList) ∧
    (atWordEnd (afterInit selector.toList) = true ↔ ¬GoesOnFromWith word) ∧
    (keptWord word ≠ [] →
      (constructorTokens selector false).head? =
        some (String.ofList (normalizeToken (keptWord word))) ∧
      (∀ token ∈ (constructorTokens selector true).head?,
        token = String.ofList (normalizeToken (keptWord word))) ∧
      (normalizeToken (keptWord word) = normalizeToken word ↔ ¬"With".toList <+: word)) ∧
    (GoesOnFromWith word → ∀ hasErrorParam, (constructorTokens selector hasErrorParam).head? ≠
      some (String.ofList (normalizeToken word))) := by
  intro word
  obtain ⟨-, -, -, -, hend⟩ := exists_eq_wordAfterInit h
  obtain ⟨rest, hrest, hafter⟩ := afterInit_eq h
  refine ⟨exists_eq_cut_append h, ?_, fun hne => ⟨head?_constructorTokens h hne, ?_,
    normalizeToken_keptWord_eq_iff⟩, fun hgoes hasErrorParam htoken => ?_⟩
  · rw [hafter, atWordEnd_append hrest]
    exact atWordEnd_keptWord_iff hend
  · exact fun token htoken => eq_of_mem_head?_constructorTokens h hne htoken
  · have hsame := eq_of_mem_head?_constructorTokens h hgoes.keptWord_ne_nil htoken
    have htokens := (String.ofList_injective hsame).symm
    exact normalizeToken_keptWord_eq_iff.mp htokens hgoes.isPrefix

/-- `_initWithinBounds:error:` goes on from `With`: its first token is `inBounds`. -/
theorem cut_at_word_end_iff_within :
    let selector := "_initWithinBounds:error:"
    let word := wordAfterInit selector.toList
    methodFamily selector = .init ∧ GoesOnFromWith word ∧
      atWordEnd (afterInit selector.toList) = false ∧
      keptWord word ≠ [] ∧ (constructorTokens selector false).head? = some "inBounds" ∧
      (constructorTokens selector true).head? ≠ some "withinBounds" := by
  intro selector word
  have hinit : methodFamily selector = .init := by decide
  have hgoes : GoesOnFromWith word := ⟨'i', "nBounds".toList, by decide, by decide⟩
  have hne : keptWord word ≠ [] := by decide
  have hkept : String.ofList (normalizeToken (keptWord word)) = "inBounds" := by decide
  have hwhole : String.ofList (normalizeToken word) = "withinBounds" := by decide
  obtain ⟨-, hcut, hfirst, hnever⟩ := cut_at_word_end_iff selector hinit
  refine ⟨hinit, hgoes, ?_, hne, ?_, ?_⟩
  · exact Bool.eq_false_iff.mpr fun hend => hcut.mp hend hgoes
  · rw [← hkept]
    exact (hfirst hne).1
  · rw [← hwhole]
    exact hnever hgoes true

/-- In `initWithoutX:` the cut is inside `Without`, and the token is `outX`. -/
theorem without_cut : methodFamily "initWithoutX:" = .init ∧
    ¬atWordEnd (afterInit "initWithoutX:".toList) = true ∧
    constructorTokens "initWithoutX:" false = ["outX"] ∧
    normalizeToken "WithoutX".toList = "withoutX".toList := by
  decide

end InteropGraph.Naming
