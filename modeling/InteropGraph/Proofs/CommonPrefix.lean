import InteropGraph.Proofs.Assembly.Declarations
import InteropGraph.Proofs.Assembly.Origins
import InteropGraph.Proofs.Lists
import Mathlib.Data.List.Infix

/-!
# The common prefix of names

`commonPrefix` finds the longest text that all names begin with and behind which a word begins in
every name (`common_prefix_longest`). The names share a start, and of the lengths up to that of the
start the greatest is taken at which a word begins everywhere.

Where a word begins is said of the bytes of a name in UTF-8 (`BeginsWordAt`), since that is where
names are cut. Digits, capitals and underscores are ASCII characters, for which no byte of another
character can be taken (`ascii_iff_of_mem`), so characters give the same answer as bytes.
-/

namespace InteropGraph.Naming

variable {names : List (List Char)} {first s t q : List Char} {m n : Nat}

/-! ### Shared starts -/

/-- A shared start is a greatest lower bound: a text begins both exactly if it begins what they
share. -/
theorem prefix_sharedStart_iff : q <+: sharedStart s t ↔ q <+: s ∧ q <+: t := by
  induction q generalizing s t with
  | nil => simp only [List.nil_prefix, and_self]
  | cons c q ih =>
    cases s with
    | nil => simp [sharedStart]
    | cons a s =>
      cases t with
      | nil => simp [sharedStart]
      | cons b t =>
        rw [sharedStart]
        by_cases hab : a = b
        · rw [if_pos hab, List.cons_prefix_cons, List.cons_prefix_cons, List.cons_prefix_cons, ih,
            ← hab]
          exact ⟨fun ⟨hc, hs, ht⟩ => ⟨⟨hc, hs⟩, hc, ht⟩, fun ⟨⟨hc, hs⟩, _, ht⟩ => ⟨hc, hs, ht⟩⟩
        · rw [if_neg hab, List.cons_prefix_cons, List.cons_prefix_cons]
          refine iff_of_false (List.cons_ne_nil _ _ ∘ List.prefix_nil.mp) ?_
          rintro ⟨⟨rfl, -⟩, hc, -⟩
          exact hab hc

/-- What all names begin with is exactly what their shared start begins with. -/
theorem prefix_foldl_sharedStart_iff {others : List (List Char)} :
    q <+: others.foldl sharedStart first ↔ ∀ name ∈ first :: others, q <+: name := by
  induction others generalizing first with
  | nil => exact List.forall_mem_singleton.symm
  | cons name others ih =>
    rw [List.foldl_cons, ih, List.forall_mem_cons, List.forall_mem_cons, List.forall_mem_cons,
      prefix_sharedStart_iff, and_assoc]

/-! ### Where words begin -/

/-- After that many characters of every name a word begins, if there are any. -/
def EndsAtWord (names : List (List Char)) (length : Nat) : Prop :=
  ∀ n, length = n + 1 → ∀ name ∈ names, wordBeginsAfter name n = true

theorem wordLength_le (names : List (List Char)) (n : Nat) : wordLength names n ≤ n := by
  induction n with
  | zero => exact Nat.le_refl 0
  | succ n ih =>
    rw [wordLength]
    split
    next => exact Nat.le_refl _
    next => exact ih.trans (Nat.le_succ n)

/-- The length that is found is one at which a word begins in every name. -/
theorem endsAtWord_wordLength (names : List (List Char)) (n : Nat) :
    EndsAtWord names (wordLength names n) := by
  induction n with
  | zero => exact nofun
  | succ n ih =>
    rw [wordLength]
    split
    next h =>
      rintro _ ⟨⟩
      exact List.all_eq_true.mp h
    next => exact ih

/-- No greater length up to the bound is one. -/
theorem le_wordLength (h : EndsAtWord names m) (hmn : m ≤ n) : m ≤ wordLength names n := by
  induction n with
  | zero => exact hmn
  | succ n ih =>
    rw [wordLength]
    split
    next => exact hmn
    next hnot =>
      refine ih (Nat.le_of_lt_succ (Nat.lt_of_le_of_ne hmn ?_))
      rintro rfl
      exact hnot (List.all_eq_true.mpr (h n rfl))

/-! ### Prefixes of whole words -/

/-- All names begin with `q`, and unless `q` is empty a word begins behind it in every one. -/
structure IsWordPrefix (names : List (List Char)) (q : List Char) : Prop where
  starts : ∀ name ∈ names, q <+: name
  ends : EndsAtWord names q.length

theorem IsWordPrefix.of_perm {names' : List (List Char)} (hperm : names.Perm names')
    (h : IsWordPrefix names q) : IsWordPrefix names' q where
  starts name hname := h.starts name (hperm.mem_iff.mpr hname)
  ends n hn name hname := h.ends n hn name (hperm.mem_iff.mpr hname)

/-- Of the prefixes of several names that end where a word begins, `sharedPrefix` is the longest. -/
theorem sharedPrefix_greatest (h : 2 ≤ names.length) :
    IsWordPrefix names (sharedPrefix names) ∧
      ∀ q, IsWordPrefix names q → q <+: sharedPrefix names := by
  match names, h with
  | first :: second :: others, _ =>
    let start := (second :: others).foldl sharedStart first
    let k := wordLength (first :: second :: others) start.length
    have hstart {q : List Char} : q <+: start ↔ ∀ name ∈ first :: second :: others, q <+: name :=
      prefix_foldl_sharedStart_iff
    have hk : k ≤ start.length := wordLength_le _ _
    have hshared : sharedPrefix (first :: second :: others) = start.take k := by
      obtain ⟨rest, hrest⟩ := hstart.mp (List.prefix_refl start) first List.mem_cons_self
      show first.take k = start.take k
      rw [← hrest, List.take_append_of_le_length hk]
    rw [hshared]
    refine ⟨⟨hstart.mp (List.take_prefix k start), ?_⟩, fun q hq => ?_⟩
    · rw [List.length_take_of_le hk]
      exact endsAtWord_wordLength _ _
    · have hqstart : q <+: start := hstart.mpr hq.starts
      have hqk : q.length ≤ k := le_wordLength hq.ends hqstart.length_le
      rw [List.prefix_iff_eq_take.mp hqstart]
      exact List.take_prefix_take_left hqk

/-- Of less than two names no prefix is taken. -/
theorem sharedPrefix_of_few (h : names.length < 2) : sharedPrefix names = [] := by
  match names, h with
  | [], _ => rfl
  | [_], _ => rfl

/-- The order of the names does not matter. -/
theorem sharedPrefix_of_perm {names' : List (List Char)} (hperm : names.Perm names') :
    sharedPrefix names' = sharedPrefix names := by
  by_cases h : names.length < 2
  · rw [sharedPrefix_of_few h, sharedPrefix_of_few (hperm.length_eq ▸ h)]
  · have hseveral : 2 ≤ names.length := Nat.le_of_not_lt h
    obtain ⟨hwords, hgreatest⟩ := sharedPrefix_greatest hseveral
    obtain ⟨hwords', hgreatest'⟩ := sharedPrefix_greatest (hperm.length_eq ▸ hseveral)
    exact (hgreatest _ (hwords'.of_perm hperm.symm)).eq_of_length_le
      (hgreatest' _ (hwords.of_perm hperm)).length_le

/-! ### Bytes -/

/-- The bytes of a text in UTF-8. -/
def bytes (s : String) : List UInt8 := s.toByteArray.data.toList

theorem bytes_append (s t : String) : bytes (s ++ t) = bytes s ++ bytes t := by
  rw [bytes, String.toByteArray_append, ByteArray.data_append, Array.toList_append]
  rfl

theorem bytes_ofList (s : List Char) :
    bytes (String.ofList s) = s.flatMap String.utf8EncodeChar := by
  rw [bytes, String.toByteArray_ofList, List.utf8Encode, List.data_toByteArray]

theorem length_bytes (s : String) : (bytes s).length = s.utf8ByteSize := by
  rw [← String.size_toByteArray]
  rfl

/-- An ASCII character is one byte, and no byte of another one can be taken for it. -/
theorem utf8EncodeChar_cases (c : Char) :
    (c.toNat < 128 ∧ ∃ b, String.utf8EncodeChar c = [b] ∧ b.toNat = c.toNat) ∨
      128 ≤ c.toNat ∧ ∀ b ∈ String.utf8EncodeChar c, 128 ≤ b.toNat := by
  have hval : c.val.toNat = c.toNat := rfl
  unfold String.utf8EncodeChar
  rw [hval]
  dsimp only
  split
  next h =>
    refine .inl ⟨by omega, _, rfl, ?_⟩
    rw [UInt8.toNat_ofNat']
    omega
  next h =>
    refine .inr ⟨by omega, fun b hb => ?_⟩
    -- two, three or four bytes
    split at hb
    · simp only [List.mem_cons, List.not_mem_nil, or_false] at hb
      rcases hb with rfl | rfl <;> rw [UInt8.toNat_ofNat'] <;> omega
    · split at hb
      · simp only [List.mem_cons, List.not_mem_nil, or_false] at hb
        rcases hb with rfl | rfl | rfl <;> rw [UInt8.toNat_ofNat'] <;> omega
      · simp only [List.mem_cons, List.not_mem_nil, or_false] at hb
        rcases hb with rfl | rfl | rfl | rfl <;> rw [UInt8.toNat_ofNat'] <;> omega

/-- Any byte of a character tells whether it is in a class of ASCII characters. -/
theorem ascii_iff_of_mem {P : Nat → Prop} (hP : ∀ n, P n → n < 128) {c : Char} {b : UInt8}
    (hb : b ∈ String.utf8EncodeChar c) : P b.toNat ↔ P c.toNat := by
  rcases utf8EncodeChar_cases c with ⟨-, b', hbytes, hsame⟩ | ⟨hc, hbytes⟩
  · rw [hbytes] at hb
    rw [List.mem_singleton.mp hb, hsame]
  · exact iff_of_false (fun h => (hP _ h).not_ge (hbytes b hb)) fun h => (hP _ h).not_ge hc

/-- The byte is an ASCII digit. -/
def IsDigitByte (b : UInt8) : Prop := '0'.toNat ≤ b.toNat ∧ b.toNat ≤ '9'.toNat

/-- The byte is an ASCII capital. -/
def IsCapitalByte (b : UInt8) : Prop := 'A'.toNat ≤ b.toNat ∧ b.toNat ≤ 'Z'.toNat

/-- The byte is an underscore. -/
def IsUnderscoreByte (b : UInt8) : Prop := b.toNat = '_'.toNat

/-- The bytes of digits are those of no other character. -/
theorem isDigitByte_iff {c : Char} {b : UInt8} (hb : b ∈ String.utf8EncodeChar c) :
    IsDigitByte b ↔ c.isDigit = true := by
  have hascii : ∀ n, '0'.toNat ≤ n ∧ n ≤ '9'.toNat → n < 128 :=
    fun _ h => Nat.lt_of_le_of_lt h.2 (by decide)
  rw [IsDigitByte, ascii_iff_of_mem hascii hb, Char.isDigit_iff_toNat]

/-- The bytes of capitals are those of no other character. -/
theorem isCapitalByte_iff {c : Char} {b : UInt8} (hb : b ∈ String.utf8EncodeChar c) :
    IsCapitalByte b ↔ c.isUpper = true := by
  have hascii : ∀ n, 'A'.toNat ≤ n ∧ n ≤ 'Z'.toNat → n < 128 :=
    fun _ h => Nat.lt_of_le_of_lt h.2 (by decide)
  rw [IsCapitalByte, ascii_iff_of_mem hascii hb]
  exact decide_eq_true_iff.symm

/-- The byte of the underscore is that of no other character. -/
theorem isUnderscoreByte_iff {c : Char} {b : UInt8} (hb : b ∈ String.utf8EncodeChar c) :
    IsUnderscoreByte b ↔ c = '_' := by
  have hascii : ∀ n, n = '_'.toNat → n < 128 := fun _ h => h ▸ by decide
  rw [IsUnderscoreByte, ascii_iff_of_mem hascii hb, Char.toNat_inj]

/-- Whether a word begins at a byte of a name: a character begins there, whose first byte is no
digit and is a capital or comes right behind an underscore. -/
structure BeginsWordAt (name : String) (n : Nat) : Prop where
  valid : String.Pos.Raw.IsValid name ⟨n⟩
  begins : ∃ b ∈ (bytes name)[n]?, ¬IsDigitByte b ∧
    (IsCapitalByte b ∨ 0 < n ∧ ∃ b' ∈ (bytes name)[n - 1]?, IsUnderscoreByte b')

/-- A name may be cut behind any text that it begins with. -/
theorem isValid_utf8ByteSize (s t : String) : String.Pos.Raw.IsValid (s ++ t) ⟨s.utf8ByteSize⟩ :=
  String.Pos.Raw.isValid_iff_exists_append.mpr ⟨s, t, rfl, rfl⟩

/-- What a name of several characters says of the place behind a part of it. -/
theorem wordBeginsAfter_append (s : List Char) (a : Char) (t : List Char) :
    wordBeginsAfter (s ++ [a] ++ t) s.length = true ↔
      ∃ c ∈ t.head?, ¬c.isDigit = true ∧ (c.isUpper = true ∨ a = '_') := by
  rw [wordBeginsAfter, List.append_assoc, List.drop_left]
  cases t with
  | nil => simp
  | cons c t => simp

/-- What follows a text begins with the first byte of its first character. -/
theorem getElem?_bytes_append (s : String) (t : List Char) :
    (bytes (s ++ String.ofList t))[s.utf8ByteSize]? =
      (t.head?.map String.utf8EncodeChar).bind List.head? := by
  rw [bytes_append, ← length_bytes, List.getElem?_append_right (Nat.le_refl _), Nat.sub_self,
    ← List.head?_eq_getElem?, bytes_ofList]
  cases t with
  | nil => rfl
  | cons c t => exact List.head?_append_of_ne_nil _ String.utf8EncodeChar_ne_nil

/-- A text ends with the last byte of its last character. -/
theorem getElem?_bytes_pred (s : List Char) (a : Char) (t : String) :
    0 < (String.ofList (s ++ [a])).utf8ByteSize ∧
      (bytes (String.ofList (s ++ [a]) ++ t))[(String.ofList (s ++ [a])).utf8ByteSize - 1]? =
        (String.utf8EncodeChar a).getLast? := by
  have hbytes : bytes (String.ofList (s ++ [a])) =
      s.flatMap String.utf8EncodeChar ++ String.utf8EncodeChar a := by
    rw [bytes_ofList, List.flatMap_append, List.flatMap_singleton]
  have hpos : 0 < (bytes (String.ofList (s ++ [a]))).length := by
    rw [hbytes, List.length_append]
    exact Nat.add_pos_right _ (List.length_pos_of_ne_nil String.utf8EncodeChar_ne_nil)
  rw [← length_bytes, bytes_append, List.getElem?_append_left (Nat.sub_one_lt_of_lt hpos),
    ← List.getLast?_eq_getElem?]
  refine ⟨hpos, ?_⟩
  rw [hbytes, List.getLast?_append_of_ne_nil _ String.utf8EncodeChar_ne_nil]

/-- The bytes around a place in a name say the same as the characters. -/
theorem beginsWordAt_append (s : List Char) (a : Char) (t : List Char) :
    BeginsWordAt (String.ofList (s ++ [a]) ++ String.ofList t)
        (String.ofList (s ++ [a])).utf8ByteSize ↔
      wordBeginsAfter (s ++ [a] ++ t) s.length = true := by
  rw [wordBeginsAfter_append]
  constructor
  · rintro ⟨-, b, hb, hdigit, hword⟩
    rw [getElem?_bytes_append] at hb
    cases t with
    | nil => cases hb
    | cons c t =>
      have hc : b ∈ String.utf8EncodeChar c := List.mem_of_head? hb
      refine ⟨c, rfl, fun h => hdigit ((isDigitByte_iff hc).mpr h), ?_⟩
      refine hword.imp (isCapitalByte_iff hc).mp ?_
      rintro ⟨-, b', hb', hunderscore⟩
      rw [(getElem?_bytes_pred s a _).2] at hb'
      exact (isUnderscoreByte_iff (List.mem_of_getLast? hb')).mp hunderscore
  · rintro ⟨c, hc, hdigit, hword⟩
    obtain ⟨hpos, hlast⟩ := getElem?_bytes_pred s a (String.ofList t)
    obtain ⟨b, hb⟩ : ∃ b, (String.utf8EncodeChar c).head? = some b :=
      ⟨_, List.head?_eq_some_head String.utf8EncodeChar_ne_nil⟩
    obtain ⟨b', hb'⟩ : ∃ b', (String.utf8EncodeChar a).getLast? = some b' :=
      ⟨_, List.getLast?_eq_some_getLast String.utf8EncodeChar_ne_nil⟩
    have hmem : b ∈ String.utf8EncodeChar c := List.mem_of_head? hb
    refine ⟨isValid_utf8ByteSize _ _, b, ?_, fun h => hdigit ((isDigitByte_iff hmem).mp h), ?_⟩
    · rw [getElem?_bytes_append, hc]
      exact hb
    · refine hword.imp (isCapitalByte_iff hmem).mpr fun ha => ⟨hpos, b', ?_, ?_⟩
      · rw [hlast]
        exact hb'
      · exact (isUnderscoreByte_iff (List.mem_of_getLast? hb')).mpr ha

/-- Whether a word begins is the same question for bytes and for characters. -/
theorem beginsWordAt_iff {name p rest : String} (hname : name = p ++ rest)
    (hn : p.toList.length = n + 1) :
    BeginsWordAt name p.utf8ByteSize ↔ wordBeginsAfter name.toList n = true := by
  rcases List.eq_nil_or_concat p.toList with hp | ⟨s, a, hp⟩
  · rw [hp] at hn
    cases hn
  · rw [List.concat_eq_append] at hp
    have hs : s.length = n := by
      rw [hp, List.length_append] at hn
      exact Nat.succ.inj hn
    have hplace := beginsWordAt_append s a rest.toList
    rw [← hp, String.ofList_toList, String.ofList_toList, ← String.toList_append, hs] at hplace
    rw [hname, hplace]

/-! ### Common prefixes -/

/-- What `IsWordPrefix` says of characters, said of texts and their bytes. -/
structure SharesWords (names : List String) (p : String) : Prop where
  starts : ∀ name ∈ names, ∃ rest, name = p ++ rest
  ends : p = "" ∨ ∀ name ∈ names, BeginsWordAt name p.utf8ByteSize

theorem prefix_iff_exists_append {p name : String} :
    p.toList <+: name.toList ↔ ∃ rest, name = p ++ rest := by
  constructor
  · rintro ⟨rest, hrest⟩
    refine ⟨String.ofList rest, String.toList_inj.mp ?_⟩
    rw [String.toList_append, String.toList_ofList, hrest]
  · rintro ⟨rest, rfl⟩
    rw [String.toList_append]
    exact List.prefix_append _ _

/-- What several names share as texts they share as lists of characters. -/
theorem sharesWords_iff {names : List String} {p : String} :
    SharesWords names p ↔ IsWordPrefix (names.map String.toList) p.toList := by
  constructor
  · rintro ⟨hstarts, hends⟩
    refine ⟨List.forall_mem_map.mpr fun name hname => ?_, fun n hn => ?_⟩
    · exact prefix_iff_exists_append.mpr (hstarts name hname)
    · refine List.forall_mem_map.mpr fun name hname => ?_
      obtain ⟨rest, hrest⟩ := hstarts name hname
      rcases hends with rfl | hends
      · cases hn
      · exact (beginsWordAt_iff hrest hn).mp (hends name hname)
  · rintro ⟨hstarts, hends⟩
    have hrest (name : String) (hname : name ∈ names) : ∃ rest, name = p ++ rest :=
      prefix_iff_exists_append.mp (hstarts _ (List.mem_map_of_mem hname))
    refine ⟨hrest, ?_⟩
    cases hn : p.toList.length with
    | zero => exact .inl (String.toList_eq_nil_iff.mp (List.length_eq_zero_iff.mp hn))
    | succ n =>
      refine .inr fun name hname => ?_
      obtain ⟨rest, hrest⟩ := hrest name hname
      exact (beginsWordAt_iff hrest hn).mpr (hends n hn _ (List.mem_map_of_mem hname))

theorem toList_commonPrefix (names : List String) :
    (commonPrefix names).toList = sharedPrefix (names.map String.toList) :=
  String.toList_ofList

/-- The prefix is shared, and begins with every other one that is. -/
theorem commonPrefix_greatest {names : List String} (h : 2 ≤ names.length) :
    SharesWords names (commonPrefix names) ∧
      ∀ p, SharesWords names p → ∃ rest, commonPrefix names = p ++ rest := by
  have hlength : 2 ≤ (names.map String.toList).length := by rwa [List.length_map]
  obtain ⟨hshares, hgreatest⟩ := sharedPrefix_greatest hlength
  rw [← toList_commonPrefix] at hshares
  refine ⟨sharesWords_iff.mpr hshares, fun p hp => prefix_iff_exists_append.mp ?_⟩
  rw [toList_commonPrefix]
  exact hgreatest _ (sharesWords_iff.mp hp)

/-- Of less than two names no prefix is taken. -/
theorem commonPrefix_of_few {names : List String} (h : names.length < 2) :
    commonPrefix names = "" := by
  have hlength : (names.map String.toList).length < 2 := by rwa [List.length_map]
  rw [commonPrefix, sharedPrefix_of_few hlength, String.ofList_nil]

/-- However many names there are, they share what `commonPrefix` finds. -/
theorem sharesWords_commonPrefix (names : List String) :
    SharesWords names (commonPrefix names) := by
  by_cases h : names.length < 2
  · rw [commonPrefix_of_few h]
    exact ⟨fun name _ => ⟨name, (String.empty_append).symm⟩, .inl rfl⟩
  · exact (commonPrefix_greatest (Nat.le_of_not_lt h)).1

/-- What stands behind a prefix at which a word begins is not empty, and begins with no digit. -/
theorem exists_head_of_beginsWordAt {p rest : String} (hne : p ≠ "")
    (h : BeginsWordAt (p ++ rest) p.utf8ByteSize) :
    ∃ c ∈ rest.toList.head?, ¬c.isDigit = true := by
  rcases List.eq_nil_or_concat p.toList with hp | ⟨s, a, hp⟩
  · exact absurd (String.toList_eq_nil_iff.mp hp) hne
  · rw [List.concat_eq_append] at hp
    rw [← String.ofList_toList (s := p), hp, ← String.ofList_toList (s := rest),
      beginsWordAt_append, wordBeginsAfter_append] at h
    obtain ⟨c, hc, hdigit, -⟩ := h
    exact ⟨c, hc, hdigit⟩

end InteropGraph.Naming

namespace InteropGraph

/-! ### Names of constants -/

/-- The short name of a constant is what is left of its name behind the common prefix, which ends
between two characters of the name. Without a common prefix there are no short names. -/
structure EnumField.IsCutBehind (common : String) (f : EnumField) : Prop where
  valid : String.Pos.Raw.IsValid f.name ⟨common.utf8ByteSize⟩
  whole : common = "" → f.shortName = none
  short : common ≠ "" → ∃ short, f.shortName = some short ∧ f.name = common ++ short ∧
    ∃ c ∈ short.toList.head?, ¬c.isDigit = true

/-- `f` has the name and the value of the constant that is declared at `d`. -/
def EnumField.IsOf (unit : SourceUnit) (d : DeclRef) (f : EnumField) : Prop :=
  ∃ decl value, unit.declaration? d = some decl ∧ decl.shape = .enumConstant value ∧
    f.name = decl.name ∧ f.value = value.value

/-- There is one field for each constant that is declared, in order, and the names of the fields are
cut behind their common prefix. -/
def Detail.HasShortNames (unit : SourceUnit) (constants : List DeclRef) (detail : Detail) : Prop :=
  ∃ common fields, detail = .enumeration common fields ∧
    List.Forall₂ (EnumField.IsOf unit) constants fields ∧
    common = Naming.commonPrefix (fields.map EnumField.name) ∧
    ∀ f ∈ fields, f.IsCutBehind common

namespace Assembly

/-- The short name of a constant is cut off where the common prefix ends. -/
theorem isCutBehind_of_mem {names : List String} {name : String} (hname : name ∈ names)
    (value : IntegerValue) :
    EnumField.IsCutBehind (Naming.commonPrefix names)
      { name
        shortName :=
          if (Naming.commonPrefix names).isEmpty then none
          else some (String.ofList (name.toList.drop (Naming.commonPrefix names).length))
        value } := by
  obtain ⟨hstarts, hends⟩ := Naming.sharesWords_commonPrefix names
  obtain ⟨rest, hrest⟩ := hstarts name hname
  refine ⟨?_, fun hempty => ?_, fun hne => ⟨rest, ?_, hrest, ?_⟩⟩
  · rw [hrest]
    exact Naming.isValid_utf8ByteSize _ _
  · exact if_pos (String.isEmpty_iff.mpr hempty)
  · have hdrop : name.toList.drop (Naming.commonPrefix names).length = rest.toList := by
      rw [hrest, String.toList_append, ← String.length_toList, List.drop_left]
    dsimp only
    rw [if_neg (mt String.isEmpty_iff.mp hne), hdrop, String.ofList_toList]
  · have hbegins := hends.resolve_left hne name hname
    rw [hrest] at hbegins
    exact Naming.exists_head_of_beginsWordAt hne hbegins

/-- Constants that have been read become fields in their order. -/
theorem hasShortNames_enumeration {unit : SourceUnit} {name : String} {refs : List DeclRef}
    {constants : List (String × BitConstant)}
    (h : refs.mapM (enumConstant unit name) = .ok constants) :
    (enumeration constants).HasShortNames unit refs := by
  refine ⟨_, _, rfl, ?_, ?_, fun f hf => ?_⟩
  · refine List.forall₂_map_right_iff.mpr ((List.mapM_eq_ok_iff.mp h).imp fun d r hr => ?_)
    obtain ⟨decl, hdecl, hshape, hname⟩ := enumConstant_eq_ok_iff.mp hr
    exact ⟨decl, r.2, hdecl, hshape, hname.symm, rfl⟩
  · rw [List.map_map]
    rfl
  · obtain ⟨⟨name, value⟩, hmem, rfl⟩ := List.mem_map.mp hf
    exact isCutBehind_of_mem (List.mem_map_of_mem hmem) value.value

/-- What is built of an enumeration has a field for each of its constants, cut behind their prefix.
-/
theorem build_hasShortNames {unit : SourceUnit} {settings : Settings} {entity : Request}
    {d : DeclRef} {decl : Declaration} {owner : String} {integerType : Option TypeRef}
    {constants : List DeclRef} (hshape : decl.shape = .enumeration integerType constants) :
    Yields (fun e => e.detail.HasShortNames unit constants)
      (build unit settings entity d decl owner) := by
  refine Yields.build (P := fun e => e.detail.HasShortNames unit constants) ?_ fun _ _ _ _ h => h
  unfold buildShape
  rw [hshape]
  exact .ofExcept_bind fun _ h => .pure (hasShortNames_enumeration h)

end Assembly

namespace Naming

/-- **The common prefix.** Of the texts that several names begin with and behind which a word begins
in every name, `commonPrefix` finds the longest, in whatever order the names are given. So in every
enumeration that is built the names of the declared constants are cut between two of their
characters, and unless the prefix is empty each is the prefix with something behind it that begins
with no digit. -/
theorem common_prefix_longest :
    (∀ names : List String, 2 ≤ names.length → SharesWords names (commonPrefix names) ∧
      ∀ p, SharesWords names p → ∃ rest, commonPrefix names = p ++ rest) ∧
    (∀ names names' : List String, names.Perm names' → commonPrefix names' = commonPrefix names) ∧
    ∀ unit settings entity d decl owner integerType constants,
      decl.shape = .enumeration integerType constants →
        ∀ a e b, (Assembly.build unit settings entity d decl owner).run a = (.ok e, b) →
          e.detail.HasShortNames unit constants := by
  refine ⟨fun names => commonPrefix_greatest, fun names names' hperm => ?_, ?_⟩
  · unfold commonPrefix
    rw [sharedPrefix_of_perm (hperm.map String.toList)]
  · intro unit settings entity d decl owner integerType constants hshape a e b hrun
    exact Assembly.build_hasShortNames hshape a e (by rw [hrun])

/-- The last letters of the two constants share their first byte, but no character. -/
theorem common_prefix_longest_lastLetters :
    let names := ["Größe_é", "Größe_ä"]
    let decl : Declaration := ⟨"Größe", "M", none, [], .none, .enumeration none [⟨1⟩, ⟨2⟩]⟩
    let unit : SourceUnit := ⟨#[decl,
      ⟨"Größe_é", "M", none, [], .none, .enumConstant ⟨0, 32, false⟩⟩,
      ⟨"Größe_ä", "M", none, [], .none, .enumConstant ⟨1, 32, false⟩⟩], #[]⟩
    2 ≤ names.length ∧ SharesWords names "Größe_" ∧
      (∀ p, SharesWords names p → ∃ rest, "Größe_" = p ++ rest) ∧
      commonPrefix names.reverse = "Größe_" ∧
      ∃ e b, (Assembly.build unit .default (Assembly.request unit .default [⟨0⟩]) ⟨0⟩ decl "").run
        .empty = (.ok e, b) ∧ e.detail.HasShortNames unit [⟨1⟩, ⟨2⟩] := by
  intro names decl unit
  have hcommon : commonPrefix names = "Größe_" := by decide
  obtain ⟨hlongest, hperm, hbuild⟩ := common_prefix_longest
  obtain ⟨hshares, hgreatest⟩ := hlongest names (by decide)
  rw [hcommon] at hshares hgreatest
  obtain ⟨e, b, hrun⟩ : ∃ e b, (Assembly.build unit .default
      (Assembly.request unit .default [⟨0⟩]) ⟨0⟩ decl "").run .empty = (.ok e, b) := ⟨_, _, rfl⟩
  refine ⟨by decide, hshares, hgreatest, ?_, e, b, hrun, ?_⟩
  · rw [hperm names _ names.reverse_perm.symm, hcommon]
  · exact hbuild unit .default _ ⟨0⟩ decl "" none [⟨1⟩, ⟨2⟩] rfl .empty e b hrun

end Naming

end InteropGraph
