import InteropGraph.Proofs.Naming.Parts

/-!
# Entities have names

The bridge name of an entity that is no method is never empty. A method has an empty one only if the
rename table has an entry for it whose value names nothing (`Nameless`): `entityNames` falls back on
the native name then, and `methodNames` does not. `bridgeName_nonempty` says so for all tables.
-/

namespace InteropGraph.Naming

variable {s value q colons : List Char}

/-! ### Values that name nothing -/

/-- What may stand in front of a name: nothing, or a text that ends with its first dot. -/
def IsQualifier (q : List Char) : Prop :=
  q = [] ∨ ∃ m, q = m ++ ['.'] ∧ '.' ∉ m ∧ '(' ∉ m

/-- What may stand behind a name without giving it labels: nothing, or parentheses that hold only
colons. -/
def NoLabels (s : List Char) : Prop :=
  s = [] ∨ ∃ colons closing, s = '(' :: (colons ++ closing) ∧ OnlyColons colons ∧
    ∀ c ∈ closing, c = ')'

/-- A rename value that has neither a name nor labels, but for a qualifier, colons and
parentheses. -/
def Nameless (value : List Char) : Prop :=
  ∃ q colons rest, Text.trim value = q ++ colons ++ rest ∧ IsQualifier q ∧ OnlyColons colons ∧
    NoLabels rest

theorem unqualified_qualifier_append (hq : IsQualifier q) (hcolons : OnlyColons colons) :
    unqualified (q ++ colons) = colons := by
  rcases hq with rfl | ⟨m, rfl, hdot, -⟩
  · exact unqualified_of_not_mem fun h => absurd (hcolons _ h) (by decide)
  · rw [List.append_assoc]
    exact unqualified_append hdot colons

theorem exists_qualifier (h : '(' ∉ s) (hcolons : OnlyColons (unqualified s)) :
    ∃ q colons, s = q ++ colons ∧ IsQualifier q ∧ OnlyColons colons := by
  rcases Text.cut_cases '.' s with ⟨hdot, -⟩ | ⟨m, rest, hdot, rfl, -⟩
  · rw [unqualified_of_not_mem hdot] at hcolons
    exact ⟨[], s, rfl, .inl rfl, hcolons⟩
  · rw [unqualified_append hdot] at hcolons
    have hm : '(' ∉ m := fun hm => h (List.mem_append_left _ hm)
    refine ⟨m ++ ['.'], rest, ?_, .inr ⟨m, rfl, hdot, hm⟩, hcolons⟩
    rw [List.append_assoc]
    rfl

/-- In colon style, exactly the values that name nothing have nothing but colons. -/
theorem onlyColons_colonStyle_iff : OnlyColons (colonStyle value) ↔ Nameless value := by
  constructor
  · intro h
    rcases Text.cut_cases '(' (Text.trim value) with ⟨hplain, -⟩ | ⟨head, inner, hhead, htrim, -⟩
    · rw [colonStyle_of_plain hplain] at h
      obtain ⟨q, colons, hs, hq, hcolons⟩ := exists_qualifier hplain h
      exact ⟨q, colons, [], by rw [hs, List.append_nil], hq, hcolons, .inl rfl⟩
    · rw [colonStyle_of_parentheses htrim hhead, onlyColons_append, onlyColons_behindColon] at h
      obtain ⟨hbase, hlabels⟩ := h
      obtain ⟨q, colons, rfl, hq, hcolons⟩ := exists_qualifier hhead hbase
      obtain ⟨closing, hinner, hclosing⟩ :=
        Text.exists_eq_dropTrailing_append (fun c => decide (c = ')')) inner
      refine ⟨q, colons, '(' :: inner, htrim, hq, hcolons, .inr ⟨_, closing, ?_, hlabels, ?_⟩⟩
      · rw [← hinner]
      · exact fun c hc => of_decide_eq_true (hclosing c hc)
  · rintro ⟨q, colons, rest, htrim, hq, hcolons, hrest⟩
    have hhead : '(' ∉ q ++ colons := by
      intro h
      rcases List.mem_append.mp h with h | h
      · rcases hq with rfl | ⟨m, rfl, -, hm⟩
        · cases h
        · rcases List.mem_append.mp h with h | h
          · exact hm h
          · exact absurd (List.mem_singleton.mp h) (by decide)
      · exact absurd (hcolons _ h) (by decide)
    rcases hrest with rfl | ⟨labels, closing, rfl, hlabels, hclosing⟩
    · rw [List.append_nil] at htrim
      rw [colonStyle_of_plain (htrim ▸ hhead), htrim, unqualified_qualifier_append hq hcolons]
      exact hcolons
    · have hkept : ∀ c ∈ labels, decide (c = ')') = false := by
        intro c hc
        rw [hlabels c hc]
        rfl
      rw [colonStyle_of_parentheses htrim hhead, unqualified_qualifier_append hq hcolons,
        onlyColons_append, onlyColons_behindColon,
        Text.dropTrailing_append fun c hc => decide_eq_true (hclosing c hc),
        Text.dropTrailing_of_not hkept]
      exact ⟨hcolons, hlabels⟩

/-- The name that a rename value stands for has no parts exactly if the value names nothing. -/
theorem partsOf_normalizeRename_eq_nil_iff {value : String} :
    partsOf (normalizeRename value).toList = [] ↔ Nameless value.toList := by
  rw [normalizeRename, String.toList_ofList, partsOf_eq_nil_iff, ← onlyColons_colonStyle_iff]
  rcases markConstructor_cases (colonStyle value.toList) with ⟨rest, hrest, h⟩ | h
  · -- neither name of constructors consists of colons
    rw [h, markConstructor_init hrest, onlyColons_append, onlyColons_append]
    have hmarked : ¬OnlyColons constructorName.toList := fun h =>
      absurd (h 'c' (by decide)) (by decide)
    have hwritten : ¬OnlyColons "init".toList := fun h => absurd (h 'i' (by decide)) (by decide)
    exact iff_of_false (fun h => hmarked h.1) fun h => hwritten h.1
  · rw [h]

/-! ### Names of methods -/

theorem constructorName_ne_empty : constructorName ≠ "" := by
  decide

/-- Parts that are joined make a name if there are any. -/
theorem bridgeName_joinedNames {parts : List (List Char)} (h : ∀ part ∈ parts, part ≠ []) :
    (joinedNames parts).bridgeName = "" ↔ parts = [] := by
  show String.ofList (camelJoin parts) = "" ↔ _
  rw [String.ofList_eq_empty_iff]
  cases parts with
  | nil => exact iff_of_true rfl rfl
  | cons part parts =>
    have hne : part ≠ [] := h part List.mem_cons_self
    rw [camelJoin, List.append_eq_nil_iff]
    exact iff_of_false (fun h => hne h.1) (List.cons_ne_nil _ _)

theorem bridgeName_renamedMethodNames {name : String} :
    (renamedMethodNames name).bridgeName = "" ↔ partsOf name.toList = [] := by
  unfold renamedMethodNames
  split
  next first labels hparts =>
    rw [hparts]
    split
    next => exact iff_of_false constructorName_ne_empty (List.cons_ne_nil _ _)
    next => exact bridgeName_joinedNames fun part hpart => ne_nil_of_mem_partsOf (hparts ▸ hpart)
  next hparts =>
    rw [hparts]
    exact bridgeName_joinedNames (List.forall_mem_nil _)

theorem mem_of_mem_dropLastIf {drop : Bool} {l : List α} {a : α} (h : a ∈ dropLastIf drop l) :
    a ∈ l := by
  cases drop with
  | false => exact h
  | true => exact (List.dropLast_sublist l).subset h

/-- Without a rename entry a method has a name if its selector has a part. -/
theorem bridgeName_defaultMethodNames {selector : String} (h : partsOf selector.toList ≠ [])
    (hasErrorParam : Bool) : (defaultMethodNames selector hasErrorParam).bridgeName ≠ "" := by
  unfold defaultMethodNames
  split
  next => exact constructorName_ne_empty
  next =>
    dsimp only
    split
    next =>
      -- the last part has been dropped and is the only one
      obtain ⟨first, others, hparts⟩ := List.exists_cons_of_ne_nil h
      rw [hparts]
      have hfirst : first ≠ [] := ne_nil_of_mem_partsOf (hparts ▸ List.mem_cons_self)
      exact fun hempty => hfirst (String.ofList_eq_empty_iff.mp hempty)
    next kept hkept =>
      intro hempty
      have hparts : ∀ part ∈ dropLastIf hasErrorParam (partsOf selector.toList), part ≠ [] :=
        fun part hpart => ne_nil_of_mem_partsOf (mem_of_mem_dropLastIf hpart)
      exact hkept ((bridgeName_joinedNames hparts).mp hempty)

theorem methodNames_of_missing {table : Renames} {selector owner : String} {hasErrorParam : Bool}
    (h : table.entry? selector owner = none) :
    methodNames table selector owner hasErrorParam =
      defaultMethodNames selector hasErrorParam := by
  rw [methodNames, resolve_of_missing h]
  exact if_neg Bool.false_ne_true

theorem bridgeName_of_entry {table : Renames} {selector owner value : String}
    {hasErrorParam : Bool} (h : table.entry? selector owner = some value) :
    (methodNames table selector owner hasErrorParam).bridgeName =
      (renamedMethodNames (normalizeRename value)).bridgeName := by
  rw [methodNames, resolve_of_entry h]
  dsimp only
  rw [if_pos rfl]

/-- **Entities have names.** Whatever the rename table has, an entity that is no method has a name
if it has a native name. A method whose selector has more than colons has a name as well, unless the
table has an entry for it that names nothing. -/
theorem bridgeName_nonempty (table : Renames) (owner : String) (hasErrorParam : Bool) :
    (∀ selector, (∃ c ∈ selector.toList, c ≠ ':') →
      ((methodNames table selector owner hasErrorParam).bridgeName = "" ↔
        ∃ value, table.entry? selector owner = some value ∧ Nameless value.toList)) ∧
    ∀ name, name ≠ "" → (entityNames table name owner).bridgeName ≠ "" := by
  constructor
  · rintro selector ⟨c, hc, hne⟩
    have hparts : partsOf selector.toList ≠ [] := fun h =>
      hne (partsOf_eq_nil_iff.mp h c hc)
    cases hentry : table.entry? selector owner with
    | none =>
      rw [methodNames_of_missing hentry]
      exact iff_of_false (bridgeName_defaultMethodNames hparts hasErrorParam) nofun
    | some value =>
      rw [bridgeName_of_entry hentry, bridgeName_renamedMethodNames,
        partsOf_normalizeRename_eq_nil_iff]
      constructor
      · intro h
        exact ⟨value, rfl, h⟩
      · rintro ⟨value', hvalue, h⟩
        cases hvalue
        exact h
  · intro name hname
    unfold entityNames
    dsimp only
    split
    next first labels hparts =>
      have hmem : first ∈ selectorParts (table.resolve name owner).name := by
        rw [hparts]
        exact List.mem_cons_self
      obtain ⟨part, hpart, rfl⟩ := List.mem_map.mp hmem
      exact fun hempty => ne_nil_of_mem_partsOf hpart (String.ofList_eq_empty_iff.mp hempty)
    next => exact hname

/-- The rename value `()` leaves the method `reload` without a name, but not a function of that
name. -/
theorem reload_nameless : (∃ c ∈ "reload".toList, c ≠ ':') ∧
    (methodNames [("reload", "()")] "reload" "" false).bridgeName = "" ∧
    (entityNames [("reload", "()")] "reload" "").bridgeName = "reload" := by
  exact ⟨⟨'r', by decide, by decide⟩, by decide, by decide⟩

end InteropGraph.Naming
