import InteropGraph.Proofs.Naming.Parts

/-!
# Two ways to write a rename value

A rename value may be written with its labels in parentheses or in colon style, with or without a
qualifier and with blanks around it. All these forms stand for the same name (`forms_agree`), which
has exactly the base and the labels as its parts.
-/

namespace InteropGraph.Naming

/-- A text that can be the qualifier, the base or a label of a rename value. -/
structure PlainName where
  text : List Char
  nonempty : text ≠ []
  plain : ∀ c ∈ text, c ∉ [':', '(', ')', '.'] ∧ Text.isBlank c = false

/-- The ways to write a rename value. -/
structure RenameForm where
  qualifier : Option PlainName
  /-- The labels are in parentheses. -/
  parenthesized : Bool
  before : List Char
  after : List Char
  blank_before : ∀ c ∈ before, Text.isBlank c = true
  blank_after : ∀ c ∈ after, Text.isBlank c = true

/-- Labels with a colon behind each. -/
def closedLabels (labels : List PlainName) : List Char :=
  labels.flatMap fun l => l.text ++ [':']

namespace RenameForm

/-- The qualifier with its dot. -/
def qualifierText (f : RenameForm) : List Char :=
  match f.qualifier with
  | some q => q.text ++ ['.']
  | none => []

/-- The labels as they stand behind the base: `(a:b:)` or `:a:b:`. In colon style a base without
labels has no colon. -/
def labelText (f : RenameForm) (labels : List PlainName) : List Char :=
  if f.parenthesized then '(' :: (closedLabels labels ++ [')'])
  else behindColon (closedLabels labels)

/-- The rename value for a base and labels in this form. -/
def write (f : RenameForm) (base : PlainName) (labels : List PlainName) : String :=
  String.ofList (f.before ++ (f.qualifierText ++ base.text ++ f.labelText labels) ++ f.after)

end RenameForm

variable {base : PlainName} {labels : List PlainName} {f : RenameForm}

/-! ### Characters of a form -/

theorem PlainName.not_mem (n : PlainName) {c : Char} (h : c ∈ [':', '(', ')', '.']) : c ∉ n.text :=
  fun hc => (n.plain c hc).1 h

theorem eq_or_mem_of_mem_closedLabels {c : Char} (h : c ∈ closedLabels labels) :
    c = ':' ∨ ∃ l ∈ labels, c ∈ l.text := by
  obtain ⟨l, hl, hc⟩ := List.mem_flatMap.mp h
  rcases List.mem_append.mp hc with hc | hc
  · exact .inr ⟨l, hl, hc⟩
  · exact .inl (List.mem_singleton.mp hc)

theorem not_mem_closedLabels {c : Char} (h : c ∈ ['(', ')', '.']) : c ∉ closedLabels labels := by
  intro hmem
  rcases eq_or_mem_of_mem_closedLabels hmem with rfl | ⟨l, -, hl⟩
  · exact absurd h (by decide)
  · exact l.not_mem (List.mem_cons_of_mem _ h) hl

theorem not_mem_behindColon {c : Char} (h : c ∈ ['(', ')', '.']) :
    c ∉ behindColon (closedLabels labels) := by
  intro hmem
  rcases mem_behindColon hmem with rfl | hmem
  · exact absurd h (by decide)
  · exact not_mem_closedLabels h hmem

theorem not_blank_closedLabels {c : Char} (h : c ∈ closedLabels labels) :
    Text.isBlank c = false := by
  rcases eq_or_mem_of_mem_closedLabels h with rfl | ⟨l, -, hl⟩
  · rfl
  · exact (l.plain c hl).2

namespace RenameForm

theorem not_mem_qualifierText {c : Char} (h : c ∈ [':', '(', ')']) : c ∉ f.qualifierText := by
  unfold qualifierText
  cases f.qualifier with
  | none => exact List.not_mem_nil
  | some q =>
    intro hmem
    rcases List.mem_append.mp hmem with hmem | hmem
    · exact q.not_mem (List.mem_append_left ['.'] h) hmem
    · obtain rfl := List.mem_singleton.mp hmem
      exact absurd h (by decide)

theorem not_blank_qualifierText {c : Char} (h : c ∈ f.qualifierText) : Text.isBlank c = false := by
  unfold qualifierText at h
  cases hq : f.qualifier with
  | none =>
    rw [hq] at h
    cases h
  | some q =>
    rw [hq] at h
    rcases List.mem_append.mp h with h | h
    · exact (q.plain c h).2
    · obtain rfl := List.mem_singleton.mp h
      rfl

theorem not_blank_labelText {c : Char} (h : c ∈ f.labelText labels) : Text.isBlank c = false := by
  unfold labelText at h
  split at h
  next =>
    rcases List.mem_cons.mp h with rfl | h
    · rfl
    · rcases List.mem_append.mp h with h | h
      · exact not_blank_closedLabels h
      · obtain rfl := List.mem_singleton.mp h
        rfl
  next =>
    rcases mem_behindColon h with rfl | h
    · rfl
    · exact not_blank_closedLabels h

/-- The blanks around a form are all that is trimmed. -/
theorem trim_write (f : RenameForm) (base : PlainName) (labels : List PlainName) :
    Text.trim (f.write base labels).toList =
      f.qualifierText ++ base.text ++ f.labelText labels := by
  rw [write, String.toList_ofList]
  refine Text.trim_surrounded f.blank_before f.blank_after fun c hc => ?_
  rcases List.mem_append.mp hc with hc | hc
  · rcases List.mem_append.mp hc with hc | hc
    · exact not_blank_qualifierText hc
    · exact (base.plain c hc).2
  · exact not_blank_labelText hc

/-! ### What a form stands for -/

theorem unqualified_qualifierText {s : List Char} (h : '.' ∉ s) :
    unqualified (f.qualifierText ++ s) = s := by
  unfold qualifierText
  cases f.qualifier with
  | none => exact unqualified_of_not_mem h
  | some q =>
    show unqualified (q.text ++ ['.'] ++ s) = s
    rw [List.append_assoc]
    exact unqualified_append (q.not_mem (by decide)) s

/-- In colon style all forms are alike. -/
theorem colonStyle_write (f : RenameForm) (base : PlainName) (labels : List PlainName) :
    colonStyle (f.write base labels).toList = base.text ++ behindColon (closedLabels labels) := by
  have htrim := f.trim_write base labels
  have hdot : '.' ∉ base.text := base.not_mem (by decide)
  have hhead : '(' ∉ f.qualifierText ++ base.text := by
    rw [List.mem_append, not_or]
    exact ⟨not_mem_qualifierText (by decide), base.not_mem (by decide)⟩
  unfold labelText at htrim
  cases hform : f.parenthesized with
  | true =>
    rw [hform, if_pos rfl] at htrim
    have hkept : ∀ c ∈ closedLabels labels, decide (c = ')') = false := by
      rintro c hc
      refine decide_eq_false ?_
      rintro rfl
      exact not_mem_closedLabels (by decide) hc
    rw [colonStyle_of_parentheses htrim hhead, unqualified_qualifierText hdot,
      Text.dropTrailing_append (List.forall_mem_singleton.mpr (decide_eq_true rfl)),
      Text.dropTrailing_of_not hkept]
  | false =>
    rw [hform, if_neg Bool.false_ne_true, List.append_assoc] at htrim
    have hplain : '(' ∉ Text.trim (f.write base labels).toList := by
      rw [htrim, ← List.append_assoc, List.mem_append, not_or]
      exact ⟨hhead, not_mem_behindColon (by decide)⟩
    rw [colonStyle_of_plain hplain, htrim]
    refine unqualified_qualifierText ?_
    rw [List.mem_append, not_or]
    exact ⟨hdot, not_mem_behindColon (by decide)⟩

end RenameForm

/-- The name of constructors for `init`, and any other base itself. -/
def PlainName.marked (base : PlainName) : List Char :=
  if base.text = "init".toList then constructorName.toList else base.text

/-- All forms stand for the same name. -/
theorem normalizeRename_write (f : RenameForm) (base : PlainName) (labels : List PlainName) :
    (normalizeRename (f.write base labels)).toList =
      base.marked ++ behindColon (closedLabels labels) := by
  rw [normalizeRename, String.toList_ofList, f.colonStyle_write]
  exact markConstructor_append (base.not_mem (by decide)) (atColon_behindColon _)

theorem partsOf_closedLabels (labels : List PlainName) :
    partsOf (closedLabels labels) = labels.map PlainName.text := by
  induction labels with
  | nil => rfl
  | cons l labels ih =>
    show partsOf (l.text ++ [':'] ++ closedLabels labels) = _
    rw [List.append_assoc, List.map_cons, ← ih]
    exact partsOf_append (l.not_mem (by decide)) l.nonempty _

/-- The base and the labels are the parts of the name. -/
theorem partsOf_write (f : RenameForm) (base : PlainName) (labels : List PlainName) :
    partsOf (normalizeRename (f.write base labels)).toList =
      base.marked :: labels.map PlainName.text := by
  have hmarked : ':' ∉ base.marked ∧ base.marked ≠ [] := by
    unfold PlainName.marked
    split
    next => exact by decide
    next => exact ⟨base.not_mem (by decide), base.nonempty⟩
  rw [normalizeRename_write, partsOf_behindColon hmarked.1 hmarked.2, partsOf_closedLabels]

/-! ### Look-ups -/

/-- It only matters what name a value stands for. -/
theorem resolve_set_congr {v v' : String} (h : normalizeRename v = normalizeRename v')
    (table : Renames) (key name owner : String) :
    (table.set key v).resolve name owner = (table.set key v').resolve name owner := by
  have hlookup (k : String) : ((table.set key v).lookup k).map normalizeRename =
      ((table.set key v').lookup k).map normalizeRename := by
    rw [Renames.set, Renames.set, List.lookup_cons, List.lookup_cons]
    cases k == key with
    | false => rfl
    | true => exact congrArg some h
  have hentry : (Option.map normalizeRename <| Renames.entry? (table.set key v) name owner) =
      (Option.map normalizeRename <| Renames.entry? (table.set key v') name owner) := by
    unfold Renames.entry?
    split
    next => exact hlookup name
    next => rw [Option.map_or, Option.map_or, hlookup, hlookup]
  cases hv : Renames.entry? (table.set key v) name owner with
  | none =>
    rw [hv, Option.map_none] at hentry
    have hv' := Option.map_eq_none_iff.mp hentry.symm
    rw [resolve_of_missing hv, resolve_of_missing hv']
  | some value =>
    rw [hv, Option.map_some] at hentry
    obtain ⟨value', hv', hsame⟩ := Option.map_eq_some_iff.mp hentry.symm
    rw [resolve_of_entry hv, resolve_of_entry hv', hsame]

/-- **Forms of rename values.** In whatever form a base and labels are written, the entry of any key
in any table gives the same names to all methods and to all other entities. What such a value is
resolved to has exactly the base, or the name of constructors for it, and the labels as its
parts. -/
theorem forms_agree (base : PlainName) (labels : List PlainName) (f f' : RenameForm)
    (table : Renames) (key : String) :
    (∀ selector owner hasErrorParam,
      methodNames (table.set key (f.write base labels)) selector owner hasErrorParam =
        methodNames (table.set key (f'.write base labels)) selector owner hasErrorParam) ∧
    (∀ name owner, entityNames (table.set key (f.write base labels)) name owner =
      entityNames (table.set key (f'.write base labels)) name owner) ∧
    ∀ (renames : Renames) (name owner : String),
      renames.entry? name owner = some (f.write base labels) →
        selectorParts (renames.resolve name owner).name =
          String.ofList base.marked :: labels.map fun l => String.ofList l.text := by
  have hsame : normalizeRename (f.write base labels) = normalizeRename (f'.write base labels) := by
    apply String.toList_inj.mp
    rw [normalizeRename_write, normalizeRename_write]
  refine ⟨fun selector owner hasErrorParam => ?_, fun name owner => ?_, fun _ name owner h => ?_⟩
  · rw [methodNames, methodNames, resolve_set_congr hsame]
  · rw [entityNames, entityNames, resolve_set_congr hsame]
  · rw [resolve_of_entry h, selectorParts, partsOf_write, List.map_cons, List.map_map]
    rfl

/-- The value `NSURL.init(string:)` in blanks, as an entry for a method of `NSURL`. -/
theorem forms_agree_initString :
    let table : Renames := [("NSURL.initWithString:", " NSURL.init(string:)\t")]
    table.entry? "initWithString:" "NSURL" = some " NSURL.init(string:)\t" ∧
      selectorParts (table.resolve "initWithString:" "NSURL").name = ["constructor", "string"] := by
  -- each character of a list is tested, and not each character there is
  let nsurl : PlainName := ⟨"NSURL".toList, by decide, List.forall_iff_forall_mem.mp (by decide)⟩
  let base : PlainName := ⟨"init".toList, by decide, List.forall_iff_forall_mem.mp (by decide)⟩
  let label : PlainName := ⟨"string".toList, by decide, List.forall_iff_forall_mem.mp (by decide)⟩
  let form : RenameForm := ⟨some nsurl, true, [' '], ['\t'],
    List.forall_mem_singleton.mpr rfl, List.forall_mem_singleton.mpr rfl⟩
  have hentry : Renames.entry? [("NSURL.initWithString:", " NSURL.init(string:)\t")]
      "initWithString:" "NSURL" = some (form.write base [label]) := by
    decide
  exact ⟨hentry, (forms_agree base [label] form form [] "").2.2 _ _ _ hentry⟩

end InteropGraph.Naming
