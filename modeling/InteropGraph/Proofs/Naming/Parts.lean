import InteropGraph.Naming.Names
import InteropGraph.Proofs.Text

/-!
# Parts of names and of rename values

How names split into parts, and what a rename value is in colon style. A value without parentheses
only loses its qualifier (`colonStyle_of_plain`); in any other one the labels move out of the
parentheses (`colonStyle_of_parentheses`).
-/

namespace InteropGraph.Naming

variable {s rest value head inner : List Char}

/-! ### Parts -/

/-- There is nothing but colons. -/
def OnlyColons (s : List Char) : Prop :=
  ∀ c ∈ s, c = ':'

theorem onlyColons_append : OnlyColons (s ++ rest) ↔ OnlyColons s ∧ OnlyColons rest :=
  List.forall_mem_append

theorem ne_nil_of_mem_partsOf {part : List Char} (h : part ∈ partsOf s) : part ≠ [] :=
  of_decide_eq_true (List.mem_filter.mp h).2

/-- A name has no parts if there is nothing between its colons. -/
theorem partsOf_eq_nil_iff : partsOf s = [] ↔ OnlyColons s := by
  have hflatten : partsOf s = [] ↔ (s.splitOn ':').flatten = [] := by
    rw [partsOf, List.filter_eq_nil_iff, List.flatten_eq_nil_iff]
    simp
  rw [hflatten, Text.flatten_splitOn, List.filter_eq_nil_iff]
  simp [OnlyColons]

theorem partsOf_of_not_mem (h : ':' ∉ s) (hne : s ≠ []) : partsOf s = [s] := by
  rw [partsOf, Text.split, List.splitOn_eq_singleton h]
  exact List.filter_cons_of_pos (decide_eq_true hne)

/-- A part that is not empty ends at the first colon. -/
theorem partsOf_append (h : ':' ∉ s) (hne : s ≠ []) (rest : List Char) :
    partsOf (s ++ ':' :: rest) = s :: partsOf rest := by
  rw [partsOf, Text.split, List.splitOn_append_cons_self_of_not_mem h]
  exact List.filter_cons_of_pos (decide_eq_true hne)

/-! ### Constructors -/

/-- A name ends before `s`: there is nothing, or labels begin with a colon. -/
def AtColon (s : List Char) : Prop :=
  s = [] ∨ ∃ labels, s = ':' :: labels

/-- The base `init` is that of a constructor, with labels behind it or without. -/
theorem markConstructor_init (h : AtColon rest) :
    markConstructor ("init".toList ++ rest) = constructorName.toList ++ rest := by
  unfold markConstructor
  rw [List.isPrefixOf?_eq_some_iff_append_eq.mpr rfl]
  rcases h with rfl | ⟨labels, rfl⟩
  · exact (List.append_nil _).symm
  · rfl

/-- Only a name that is `init` or begins with it as its first part is changed. -/
theorem markConstructor_cases (s : List Char) :
    (∃ rest, AtColon rest ∧ s = "init".toList ++ rest) ∨ markConstructor s = s := by
  unfold markConstructor
  split
  next h => exact .inl ⟨[], .inl rfl, (List.append_eq_of_isPrefixOf?_eq_some h).symm⟩
  next labels h =>
    exact .inl ⟨':' :: labels, .inr ⟨labels, rfl⟩, (List.append_eq_of_isPrefixOf?_eq_some h).symm⟩
  next => exact .inr rfl

/-- A base is what stands before the labels. -/
theorem cut_of_atColon (h : ':' ∉ s) (hrest : AtColon rest) : (Text.cut ':' (s ++ rest)).1 = s := by
  rcases hrest with rfl | ⟨labels, rfl⟩
  · rw [List.append_nil, Text.cut_of_not_mem h]
  · rw [Text.cut_append h]

/-- Any other base stays as it is. -/
theorem markConstructor_append (h : ':' ∉ s) (hrest : AtColon rest) :
    markConstructor (s ++ rest) =
      (if s = "init".toList then constructorName.toList else s) ++ rest := by
  by_cases hs : s = "init".toList
  · rw [if_pos hs, hs, markConstructor_init hrest]
  · rw [if_neg hs]
    rcases markConstructor_cases (s ++ rest) with ⟨rest', hrest', heq⟩ | hsame
    · -- both are cut at their first colon
      have hcut := congrArg (fun t => (Text.cut ':' t).1) heq
      rw [cut_of_atColon h hrest, cut_of_atColon (by decide) hrest'] at hcut
      exact absurd hcut hs
    · exact hsame

/-! ### Colon style -/

/-- A name without the qualifier in front of it. -/
def unqualified (name : List Char) : List Char :=
  (Text.cut '.' name).2.getD name

theorem unqualified_of_not_mem (h : '.' ∉ s) : unqualified s = s := by
  rw [unqualified, Text.cut_of_not_mem h, Option.getD_none]

/-- A qualifier goes with its point. -/
theorem unqualified_append (h : '.' ∉ s) (rest : List Char) :
    unqualified (s ++ '.' :: rest) = rest := by
  rw [unqualified, Text.cut_append h, Option.getD_some]

/-- Labels behind the colon that ends a name; without labels there is no colon. -/
def behindColon : List Char → List Char
  | [] => []
  | labels => ':' :: labels

/-- A colon more or less does not make a name of labels that are none. -/
theorem onlyColons_behindColon : OnlyColons (behindColon s) ↔ OnlyColons s := by
  cases s with
  | nil => rfl
  | cons c s =>
    show OnlyColons (':' :: c :: s) ↔ _
    rw [OnlyColons, List.forall_mem_cons, and_iff_right rfl, OnlyColons]

/-- At most a colon is added. -/
theorem mem_behindColon {c : Char} (h : c ∈ behindColon s) : c = ':' ∨ c ∈ s := by
  cases s with
  | nil => exact .inr h
  | cons d s => exact List.mem_cons.mp h

/-- A name with labels has them as further parts. -/
theorem partsOf_behindColon (h : ':' ∉ s) (hne : s ≠ []) (labels : List Char) :
    partsOf (s ++ behindColon labels) = s :: partsOf labels := by
  cases labels with
  | nil =>
    rw [behindColon, List.append_nil, partsOf_of_not_mem h hne]
    rfl
  | cons c labels => exact partsOf_append h hne (c :: labels)

theorem atColon_behindColon (labels : List Char) : AtColon (behindColon labels) := by
  cases labels with
  | nil => exact .inl rfl
  | cons c labels => exact .inr ⟨c :: labels, rfl⟩

/-- A value without parentheses loses its blanks and its qualifier only. -/
theorem colonStyle_of_plain (h : '(' ∉ Text.trim value) :
    colonStyle value = unqualified (Text.trim value) := by
  unfold colonStyle
  rw [Text.cut_of_not_mem h]
  rfl

/-- The labels of a value with parentheses come behind a colon, without closing parentheses. -/
theorem colonStyle_of_parentheses (h : Text.trim value = head ++ '(' :: inner)
    (hhead : '(' ∉ head) :
    colonStyle value =
      unqualified head ++ behindColon (Text.dropTrailing (fun c => decide (c = ')')) inner) := by
  unfold colonStyle
  rw [h, Text.cut_append hhead]
  cases hlabels : Text.dropTrailing (fun c => decide (c = ')')) inner with
  | nil =>
    dsimp only
    rw [hlabels]
    exact (List.append_nil _).symm
  | cons c labels =>
    dsimp only
    rw [hlabels]
    rfl

/-! ### Look-ups -/

variable {table : Renames} {name owner : String}

/-- A name with an entry is what its value says, and counts as renamed. -/
theorem resolve_of_entry {value : String} (h : table.entry? name owner = some value) :
    table.resolve name owner = ⟨normalizeRename value, true⟩ := by
  rw [Renames.resolve, h]

/-- A name without an entry stays as it is. -/
theorem resolve_of_missing (h : table.entry? name owner = none) :
    table.resolve name owner = ⟨name, false⟩ := by
  rw [Renames.resolve, h]

end InteropGraph.Naming
