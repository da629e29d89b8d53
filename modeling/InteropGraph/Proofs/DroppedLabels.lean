import InteropGraph.Proofs.BridgeNames

/-!
# What a trailing error parameter takes away

A method whose last parameter takes an error out has no label for it. The last part of the selector
is dropped before repeated tokens are numbered and before parts are joined, and yet the names are
those without the error parameter less the end of them: the numbers only depend on the tokens that
come earlier (`numberRepeats_append`), and a part is joined behind what the earlier ones make
(`camelJoin_concat`).
-/

namespace InteropGraph.Naming

variable {parts : List (List Char)} {table : Renames} {selector owner : String}

/-! ### Tokens -/

/-- The numbers of repeats depend on earlier tokens, and not on later ones. -/
theorem numberRepeats_append (before ts us : List (List Char)) :
    numberRepeats before (ts ++ us) =
      numberRepeats before ts ++ numberRepeats (ts.reverse ++ before) us := by
  induction ts generalizing before with
  | nil => rfl
  | cons t ts ih =>
    rw [List.cons_append, numberRepeats, numberRepeats, ih, List.reverse_cons, List.append_assoc]
    rfl

theorem numberRepeats_dropLast (before ts : List (List Char)) :
    numberRepeats before ts.dropLast = (numberRepeats before ts).dropLast := by
  rcases List.eq_nil_or_concat ts with rfl | ⟨earlier, last, rfl⟩
  · rfl
  · obtain ⟨t, hlast⟩ : ∃ t, numberRepeats (earlier.reverse ++ before) [last] = [t] := ⟨_, rfl⟩
    rw [List.concat_eq_append, List.dropLast_concat, numberRepeats_append, hlast,
      List.dropLast_concat]

theorem constructorTokens_true (selector : String) :
    constructorTokens selector true = (constructorTokens selector false).dropLast := by
  show (numberRepeats [] (plainTokens selector.toList).dropLast).map String.ofList =
    ((numberRepeats [] (plainTokens selector.toList)).map String.ofList).dropLast
  rw [numberRepeats_dropLast, List.map_dropLast]

/-! ### Joined parts -/

theorem camelJoin_concat (h : parts ≠ []) (last : List Char) :
    camelJoin (parts ++ [last]) = camelJoin parts ++ capitalize last := by
  obtain ⟨first, others, rfl⟩ := List.exists_cons_of_ne_nil h
  rw [List.cons_append, camelJoin, camelJoin, List.map_append, List.flatten_append,
    List.append_assoc]
  exact congrArg _ (congrArg _ (List.append_nil _))

/-! ### Names of methods -/

theorem defaultMethodNames_of_init (h : methodFamily selector = .init) (hasErrorParam : Bool) :
    defaultMethodNames selector hasErrorParam =
      constructorNames (constructorTokens selector hasErrorParam) :=
  if_pos h

/-- A method of no init family is named by the parts that it keeps, or else by its first part. -/
theorem defaultMethodNames_of_not_init (h : methodFamily selector ≠ .init) (hasErrorParam : Bool) :
    defaultMethodNames selector hasErrorParam =
      { joinedNames (dropLastIf hasErrorParam (partsOf selector.toList)) with
        bridgeName :=
          match dropLastIf hasErrorParam (partsOf selector.toList) with
          | [] => String.ofList ((partsOf selector.toList).head?.getD [])
          | kept => String.ofList (camelJoin kept) } := by
  rw [defaultMethodNames, if_neg h]
  dsimp only
  split
  next hkept => rw [hkept]
  next hkept =>
    cases hparts : dropLastIf hasErrorParam (partsOf selector.toList) with
    | nil => exact absurd hparts hkept
    | cons first others => rfl

/-- With at most one part the name is that part, if there is one. -/
theorem bridgeName_of_single (h : methodFamily selector ≠ .init)
    (hparts : (partsOf selector.toList).length < 2) (hasErrorParam : Bool) :
    (defaultMethodNames selector hasErrorParam).bridgeName =
      String.ofList ((partsOf selector.toList).head?.getD []) := by
  rw [defaultMethodNames_of_not_init h]
  match hs : partsOf selector.toList with
  | [] => cases hasErrorParam <;> rfl
  | [part] =>
    cases hasErrorParam with
    | false => exact congrArg String.ofList (List.append_nil part)
    | true => rfl
  | _ :: _ :: _ =>
    rw [hs, List.length_cons, List.length_cons] at hparts
    omega

/-- The last of several parts is joined behind the others, if it is not dropped. -/
theorem bridgeName_of_several (h : methodFamily selector ≠ .init)
    (hparts : 2 ≤ (partsOf selector.toList).length) :
    ∃ last ∈ (partsOf selector.toList).getLast?,
      (defaultMethodNames selector false).bridgeName =
        (defaultMethodNames selector true).bridgeName ++ String.ofList (capitalize last) := by
  obtain ⟨first, others, last, hs⟩ :
      ∃ first others last, partsOf selector.toList = first :: others ++ [last] := by
    rcases List.eq_nil_or_concat (partsOf selector.toList) with hs | ⟨_ | ⟨first, others⟩, last, hs⟩
    · rw [hs] at hparts
      exact absurd hparts (by decide)
    · rw [hs] at hparts
      exact absurd hparts (Nat.not_succ_le_self 1)
    · exact ⟨first, others, last, hs.trans List.concat_eq_append⟩
  have hwhole : dropLastIf false (first :: others ++ [last]) = first :: (others ++ [last]) := rfl
  have hshort : dropLastIf true (first :: others ++ [last]) = first :: others :=
    List.dropLast_concat
  refine ⟨last, ?_, ?_⟩
  · rw [hs, List.getLast?_concat]
    rfl
  · rw [defaultMethodNames_of_not_init h, defaultMethodNames_of_not_init h, hs, hwhole, hshort]
    show String.ofList (camelJoin (first :: others ++ [last])) = _
    rw [camelJoin_concat (List.cons_ne_nil first others), String.ofList_append]

/-- **A trailing error parameter.** The tokens of a constructor with an error parameter are those
without it less the last one, with the same numbers. The same holds of the labels of every method
without a rename entry. A method of no init family whose selector has several parts loses exactly
the last part from its name as well; the name of any other method stays. -/
theorem error_param_drops_last (selector : String) :
    constructorTokens selector true = (constructorTokens selector false).dropLast ∧
    ∀ (table : Renames) (owner : String), table.entry? selector owner = none →
      let whole := methodNames table selector owner false
      let short := methodNames table selector owner true
      short.labels = whole.labels.dropLast ∧ short.tokens = whole.tokens.dropLast ∧
      short.renamed = whole.renamed ∧
      (methodFamily selector ≠ .init → 2 ≤ (selectorParts selector).length →
        ∃ last ∈ (partsOf selector.toList).getLast?,
          whole.bridgeName = short.bridgeName ++ String.ofList (capitalize last)) ∧
      (methodFamily selector = .init ∨ (selectorParts selector).length < 2 →
        short.bridgeName = whole.bridgeName) := by
  refine ⟨constructorTokens_true selector, fun table owner hentry => ?_⟩
  have hlength : (selectorParts selector).length = (partsOf selector.toList).length :=
    List.length_map _
  rw [methodNames_of_missing hentry, methodNames_of_missing hentry, hlength]
  by_cases h : methodFamily selector = .init
  · rw [defaultMethodNames_of_init h, defaultMethodNames_of_init h, constructorTokens_true]
    generalize constructorTokens selector false = tokens
    exact ⟨rfl, rfl, rfl, fun hne => absurd h hne, fun _ => rfl⟩
  · refine ⟨?_, ?_, ?_, fun _ hseveral => bridgeName_of_several h hseveral, fun hsingle => ?_⟩
    · rw [defaultMethodNames_of_not_init h, defaultMethodNames_of_not_init h]
      exact List.map_dropLast
    · rw [defaultMethodNames_of_not_init h, defaultMethodNames_of_not_init h]
      rfl
    · rw [defaultMethodNames_of_not_init h, defaultMethodNames_of_not_init h]
      rfl
    · have hfew : (partsOf selector.toList).length < 2 := hsingle.resolve_left h
      rw [bridgeName_of_single h hfew, bridgeName_of_single h hfew]

/-- `loadData:options:error:` is `loadDataOptions` with an error parameter, although the table has
an entry for another method, and `reload:` keeps its name. -/
theorem error_param_drops_last_loadData :
    let table : Renames := [("load", "fetch")]
    table.entry? "loadData:options:error:" "Store" = none ∧
      (methodNames table "loadData:options:error:" "Store" true).labels =
        ["loadData", "options"] ∧
      (methodNames table "loadData:options:error:" "Store" false).bridgeName =
        (methodNames table "loadData:options:error:" "Store" true).bridgeName ++ "Error" ∧
      table.entry? "reload:" "Store" = none ∧
      (methodNames table "reload:" "Store" true).bridgeName =
        (methodNames table "reload:" "Store" false).bridgeName := by
  intro table
  have hentry : table.entry? "loadData:options:error:" "Store" = none := by decide
  have hentry' : table.entry? "reload:" "Store" = none := by decide
  obtain ⟨hlabels, -, -, hseveral, -⟩ :=
    (error_param_drops_last "loadData:options:error:").2 table "Store" hentry
  obtain ⟨-, -, -, -, hsingle⟩ := (error_param_drops_last "reload:").2 table "Store" hentry'
  have hwhole : (methodNames table "loadData:options:error:" "Store" false).labels =
      ["loadData", "options", "error"] := by decide
  have hparts : (partsOf "loadData:options:error:".toList).getLast? = some "error".toList := by
    decide
  have hcapital : String.ofList (capitalize "error".toList) = "Error" := by decide
  obtain ⟨last, hlast, hname⟩ := hseveral (by decide) (by decide)
  rw [hparts] at hlast
  obtain rfl := Option.some.inj hlast
  rw [hwhole] at hlabels
  rw [hcapital] at hname
  exact ⟨hentry, hlabels, hname, hentry', hsingle (.inr (by decide))⟩

end InteropGraph.Naming
