import InteropGraph.Proofs.Text
import InteropGraph.Version

/-!
# Versions as text

`parse` accepts exactly the texts of a grammar (`Spells`), with blanks around them, and `display`
writes one of them, so what it writes is read as the same version (`parse_display`). The components
between the points are decimal numbers or signs for unknown ones, and at the end only unknown
components are left out, which is what missing ones are taken for.
-/

namespace InteropGraph

namespace Version

variable {s t : List Char} {c : Option UInt32} {x : Char} {v : Version}

/-! ### Components -/

/-- A number with or without a plus sign in front of it, and with zeros in front of its digits. -/
def numeral (plus : Bool) (zeros : Nat) (n : UInt32) : List Char :=
  (if plus then ['+'] else []) ++ (List.replicate zeros '0' ++ Nat.toDigits 10 n.toNat)

/-- The ways to spell a component. -/
inductive SpellsComponent : List Char → Option UInt32 → Prop
  | unknown (sign : Char) (h : sign ∈ ['x', 'X', '*']) : SpellsComponent [sign] none
  | number (plus : Bool) (zeros : Nat) (n : UInt32) :
    SpellsComponent (numeral plus zeros n) (some n)

/-- A numeral is made of digits, with a sign in front or without. -/
theorem eq_plus_or_isDigit_of_mem_numeral {plus : Bool} {zeros : Nat} {n : UInt32}
    (h : x ∈ numeral plus zeros n) : x = '+' ∨ x.isDigit = true := by
  rcases List.mem_append.mp h with h | h
  · cases plus with
    | false => cases h
    | true => exact .inl (List.mem_singleton.mp h)
  · exact .inr (Text.isDigit_of_mem_zeros_toDigits h)

/-- The characters of a component. -/
theorem SpellsComponent.of_mem (h : SpellsComponent s c) (hx : x ∈ s) :
    x ∈ ['x', 'X', '*', '+'] ∨ x.isDigit = true := by
  cases h with
  | unknown sign hsign =>
    obtain rfl := List.mem_singleton.mp hx
    exact .inl (List.mem_append_left ['+'] hsign)
  | number plus zeros n =>
    rcases eq_plus_or_isDigit_of_mem_numeral hx with rfl | hdigit
    · exact .inl (by decide)
    · exact .inr hdigit

theorem SpellsComponent.point_not_mem (h : SpellsComponent s c) : '.' ∉ s :=
  fun hx => absurd (h.of_mem hx) (by decide)

/-- Behind its sign a numeral is zeros and the number. -/
theorem withoutStart_numeral (plus : Bool) (zeros : Nat) (n : UInt32) :
    Text.withoutStart ['+'] (numeral plus zeros n) =
      List.replicate zeros '0' ++ Nat.toDigits 10 n.toNat := by
  cases plus with
  | true => exact Text.withoutStart_append ['+'] _
  | false =>
    refine Text.withoutStart_of_not_isPrefix ?_
    rintro ⟨rest, hrest⟩
    have hplus : '+' ∈ numeral false zeros n := by
      rw [← hrest]
      exact List.mem_cons_self
    exact absurd (Text.isDigit_of_mem_zeros_toDigits hplus) (by decide)

/-- A component is read from exactly its spellings. -/
theorem component?_eq_some_iff : component? s = some c ↔ SpellsComponent s c := by
  constructor
  · intro h
    unfold component? at h
    split at h
    next hsign =>
      obtain rfl := Option.some.inj h
      rcases hsign with rfl | rfl | rfl <;> exact .unknown _ (by decide)
    next =>
      split at h
      next n hn =>
        split at h
        next hsize =>
          obtain rfl := Option.some.inj h
          obtain ⟨zeros, hzeros⟩ := Text.digits?_eq_some_iff.mp hn
          obtain ⟨n, rfl⟩ : ∃ m : UInt32, n = m.toNat :=
            ⟨.ofNat n, (UInt32.toNat_ofNat_of_lt' hsize).symm⟩
          rw [UInt32.ofNat_toNat]
          rcases Text.withoutStart_cases ['+'] s with hs | hs
          · rw [hs, hzeros]
            exact .number true zeros n
          · rw [← hs, hzeros]
            exact .number false zeros n
        next => cases h
      next => cases h
  · intro h
    cases h with
    | unknown sign hsign =>
      unfold component?
      rw [if_pos]
      simpa using hsign
    | number plus zeros n =>
      have hsign : ∀ x ∈ ['x', 'X', '*'], x ≠ '+' ∧ x.isDigit = false :=
        List.forall_iff_forall_mem.mp (by decide)
      have hne (x : Char) (hx : x ∈ ['x', 'X', '*']) : numeral plus zeros n ≠ [x] := by
        intro h
        have hmem : x ∈ numeral plus zeros n := by
          rw [h]
          exact List.mem_cons_self
        rcases eq_plus_or_isDigit_of_mem_numeral hmem with hplus | hdigit
        · exact (hsign x hx).1 hplus
        · rw [(hsign x hx).2] at hdigit
          cases hdigit
      unfold component?
      rw [if_neg (by simp [hne]), withoutStart_numeral, Text.digits?_eq_some_iff.mpr ⟨zeros, rfl⟩]
      simp [n.toNat_lt_size]

/-- A component as it is written. -/
def chars (c : Option UInt32) : List Char := (displayComponent c).toList

theorem chars_some (n : UInt32) : chars (some n) = Nat.toDigits 10 n.toNat := by
  show (toString n.toNat).toList = _
  rw [Nat.toString_eq_ofList_toDigits, String.toList_ofList]

theorem spellsComponent_chars (c : Option UInt32) : SpellsComponent (chars c) c := by
  cases c with
  | none => exact .unknown 'x' (by decide)
  | some n =>
    rw [chars_some]
    exact .number false 0 n

/-! ### Versions -/

/-- The ways to spell a version; missing components are unknown. -/
inductive Spells : List Char → Version → Prop
  | word : Spells "unknown".toList unknown
  | major {s a} (h : SpellsComponent s a) : Spells s ⟨a, none, none⟩
  | minor {s t a b} (h : SpellsComponent s a) (h' : SpellsComponent t b) :
    Spells (s ++ '.' :: t) ⟨a, b, none⟩
  | subminor {s t u a b c} (h : SpellsComponent s a) (h' : SpellsComponent t b)
    (h'' : SpellsComponent u c) : Spells (s ++ '.' :: (t ++ '.' :: u)) ⟨a, b, c⟩

/-- The ways to spell components with points between them. -/
inductive Pointed : List Char → List (Option UInt32) → Prop
  | last {s : List Char} {c : Option UInt32} (h : SpellsComponent s c) : Pointed s [c]
  | more {s t : List Char} {c : Option UInt32} {cs : List (Option UInt32)}
    (h : SpellsComponent s c) (h' : Pointed t cs) : Pointed (s ++ '.' :: t) (c :: cs)

variable {cs : List (Option UInt32)}

/-- The characters of components and the points between them. -/
theorem Pointed.of_mem (h : Pointed s cs) (hx : x ∈ s) :
    x ∈ ['x', 'X', '*', '+', '.'] ∨ x.isDigit = true := by
  have hcomponent {s c} (h : SpellsComponent s c) (hx : x ∈ s) :
      x ∈ ['x', 'X', '*', '+', '.'] ∨ x.isDigit = true :=
    (h.of_mem hx).imp_left fun h => List.mem_append_left ['.'] h
  induction h with
  | last h => exact hcomponent h hx
  | more h h' ih =>
    rcases List.mem_append.mp hx with hx | hx
    · exact hcomponent h hx
    · rcases List.mem_cons.mp hx with rfl | hx
      · exact .inl (by decide)
      · exact ih hx

/-- Parts are read one after the other. -/
theorem mapM_component?_cons_iff {part : List Char} {parts : List (List Char)} :
    (part :: parts).mapM component? = some cs ↔
      ∃ c rest, SpellsComponent part c ∧ parts.mapM component? = some rest ∧ cs = c :: rest := by
  simp only [List.mapM_cons, Option.bind_eq_bind, Option.bind_eq_some_iff, component?_eq_some_iff,
    Option.pure_def, Option.some.injEq, eq_comm (a := cs)]
  constructor
  · rintro ⟨c, hc, rest, hrest, hcs⟩
    exact ⟨c, rest, hc, hrest, hcs⟩
  · rintro ⟨c, rest, hc, hrest, hcs⟩
    exact ⟨c, hc, rest, hrest, hcs⟩

/-- Components are read from the parts between the points. -/
theorem mapM_component?_split_iff :
    (s.splitOn '.').mapM component? = some cs ↔ Pointed s cs := by
  constructor
  · intro h
    induction cs generalizing s with
    | nil =>
      rcases Text.splitOn_cases '.' s with ⟨-, hs⟩ | ⟨first, rest, -, -, hs⟩ <;>
      · rw [hs, mapM_component?_cons_iff] at h
        obtain ⟨_, _, -, -, h⟩ := h
        cases h
    | cons c cs ih =>
      rcases Text.splitOn_cases '.' s with ⟨-, hs⟩ | ⟨first, rest, -, rfl, hs⟩
      · rw [hs, mapM_component?_cons_iff] at h
        obtain ⟨_, _, hc, hnil, h⟩ := h
        cases h
        cases hnil
        exact .last hc
      · rw [hs, mapM_component?_cons_iff] at h
        obtain ⟨_, _, hc, hrest, h⟩ := h
        cases h
        exact .more hc (ih hrest)
  · intro h
    induction h with
    | last h =>
      rw [List.splitOn_eq_singleton h.point_not_mem, mapM_component?_cons_iff]
      exact ⟨_, [], h, rfl, rfl⟩
    | more h h' ih =>
      rw [List.splitOn_append_cons_self_of_not_mem h.point_not_mem, mapM_component?_cons_iff]
      exact ⟨_, _, h, ih, rfl⟩

/-- A version is spelled as a word or by its components. -/
theorem spells_iff : Spells s v ↔
    s = "unknown".toList ∧ v = unknown ∨ ∃ cs, Pointed s cs ∧ ofComponents? cs = some v := by
  constructor
  · intro h
    cases h with
    | word => exact .inl ⟨rfl, rfl⟩
    | major h => exact .inr ⟨_, .last h, rfl⟩
    | minor h h' => exact .inr ⟨_, .more h (.last h'), rfl⟩
    | subminor h h' h'' => exact .inr ⟨_, .more h (.more h' (.last h'')), rfl⟩
  · rintro (⟨rfl, rfl⟩ | ⟨cs, h, hv⟩)
    · exact .word
    · match cs, h, hv with
      | [_], .last h, rfl => exact .major h
      | [_, _], .more h (.last h'), rfl => exact .minor h h'
      | [_, _, _], .more h (.more h' (.last h'')), rfl => exact .subminor h h' h''

/-- No blank stands within a version. -/
theorem Spells.not_isBlank (h : Spells s v) (hx : x ∈ s) : Text.isBlank x = false := by
  have hword : ∀ x ∈ "unknown".toList, Text.isBlank x = false :=
    List.forall_iff_forall_mem.mp (by decide)
  have hsign : ∀ x ∈ ['x', 'X', '*', '+', '.'], Text.isBlank x = false :=
    List.forall_iff_forall_mem.mp (by decide)
  rcases spells_iff.mp h with ⟨rfl, -⟩ | ⟨cs, hcs, -⟩
  · exact hword x hx
  · rcases hcs.of_mem hx with hx | hdigit
    · exact hsign x hx
    · obtain ⟨hlow, hhigh⟩ := Char.isDigit_iff_toNat.mp hdigit
      simp only [Char.reduceToNat] at hlow hhigh
      unfold Text.isBlank
      simp only [Bool.or_eq_false_iff, Bool.and_eq_false_iff, beq_eq_false_iff_ne,
        decide_eq_false_iff_not]
      omega

/-- A version is read from exactly its spellings. -/
theorem ofTrimmed?_eq_some_iff : ofTrimmed? s = some v ↔ Spells s v := by
  rw [spells_iff, ofTrimmed?]
  by_cases hword : s = "unknown".toList
  · have hnot : ¬∃ cs, Pointed s cs ∧ ofComponents? cs = some v := by
      rintro ⟨cs, hcs, -⟩
      have hu : 'u' ∈ s := by
        rw [hword]
        decide
      exact absurd (hcs.of_mem hu) (by decide)
    rw [if_pos hword, or_iff_left hnot, and_iff_right hword, Option.some.injEq, eq_comm]
  · have hnot : ¬(s = "unknown".toList ∧ v = unknown) := fun h => hword h.1
    simp only [if_neg hword, or_iff_right hnot, Option.bind_eq_some_iff, mapM_component?_split_iff]

/-- A text spells a version if it is a spelling of it with blanks around. -/
def IsTextOf (s : String) (v : Version) : Prop :=
  ∃ before core after, (∀ x ∈ before, Text.isBlank x = true) ∧
    (∀ x ∈ after, Text.isBlank x = true) ∧ s.toList = before ++ core ++ after ∧ Spells core v

/-- What is read are texts of versions with blanks around them. -/
theorem ofTrimmed?_trim_iff {s : String} :
    ofTrimmed? (Text.trim s.toList) = some v ↔ IsTextOf s v := by
  rw [ofTrimmed?_eq_some_iff]
  constructor
  · intro h
    obtain ⟨before, after, hbefore, hafter, hs⟩ := Text.exists_eq_surrounded_trim s.toList
    exact ⟨before, _, after, hbefore, hafter, hs, h⟩
  · rintro ⟨before, core, after, hbefore, hafter, hs, h⟩
    rw [hs, Text.trim_surrounded hbefore hafter fun x => h.not_isBlank]
    exact h

theorem parse_eq_ok_iff {s : String} : parse s = .ok v ↔ IsTextOf s v := by
  rw [← ofTrimmed?_trim_iff]
  unfold parse
  cases ofTrimmed? (Text.trim s.toList) with
  | none => exact iff_of_false nofun nofun
  | some w => rw [Except.ok.injEq, Option.some.injEq]

/-- A text that is refused is told as it has been given. -/
theorem parse_eq_error_iff {s : String} {e : Invalid} :
    parse s = .error e ↔ e = ⟨s⟩ ∧ ∀ v, ¬IsTextOf s v := by
  simp only [← ofTrimmed?_trim_iff]
  unfold parse
  cases ofTrimmed? (Text.trim s.toList) with
  | none => simp [eq_comm]
  | some w => simp

/-! ### What is written -/

/-- Components with points between them. -/
def joined : List (Option UInt32) → List Char
  | [] => []
  | [c] => chars c
  | c :: rest => chars c ++ '.' :: joined rest

/-- Up to three joined components spell the version that has them. -/
theorem spells_joined {cs : List (Option UInt32)} (h : ofComponents? cs = some v) :
    Spells (joined cs) v := by
  match cs, h with
  | [a], rfl => exact .major (spellsComponent_chars a)
  | [a, b], rfl => exact .minor (spellsComponent_chars a) (spellsComponent_chars b)
  | [a, b, c], rfl =>
    exact .subminor (spellsComponent_chars a) (spellsComponent_chars b) (spellsComponent_chars c)

/-- What is written is a word for a version of which nothing is known, or joined components. -/
theorem display_cases (v : Version) : v = unknown ∨
    ∃ cs ≠ [], v.display.toList = joined cs ∧ ofComponents? cs = some v := by
  obtain ⟨a, b, c⟩ := v
  cases c with
  | some c =>
    refine .inr ⟨[a, b, some c], nofun, ?_, rfl⟩
    simp [display, joined, chars]
  | none =>
    cases b with
    | some b =>
      refine .inr ⟨[a, some b], nofun, ?_, rfl⟩
      simp [display, joined, chars]
    | none =>
      cases a with
      | some a => exact .inr ⟨[some a], nofun, rfl, rfl⟩
      | none => exact .inl rfl

/-- A version is displayed in one of the ways that it is spelled. -/
theorem spells_display (v : Version) : Spells v.display.toList v := by
  rcases v.display_cases with rfl | ⟨cs, -, hdisplay, hv⟩
  · exact .word
  · rw [hdisplay]
    exact spells_joined hv

/-- **Versions survive being written.** -/
theorem parse_display (v : Version) : parse v.display = .ok v :=
  parse_eq_ok_iff.mpr ⟨[], _, [], nofun, nofun, (List.append_nil _).symm, v.spells_display⟩

/-- **Texts of versions.** Every version is read from the text that is written for it. What is read
as a version are exactly its spellings with blanks around them; every other text is refused, and is
in the failure as it stands. So to write what has been read and to read it again gives the same. -/
theorem texts_of_versions :
    (∀ v, parse v.display = .ok v) ∧
    (∀ s v, parse s = .ok v ↔ IsTextOf s v) ∧
    (∀ s e, parse s = .error e ↔ e = ⟨s⟩ ∧ ∀ v, ¬IsTextOf s v) ∧
    ∀ s, ((parse s).bind fun v => parse v.display) = parse s := by
  refine ⟨parse_display, fun _ _ => parse_eq_ok_iff, fun _ _ => parse_eq_error_iff, fun s => ?_⟩
  cases parse s with
  | ok v => exact parse_display v
  | error e => rfl

end Version

end InteropGraph
