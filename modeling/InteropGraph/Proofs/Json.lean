import InteropGraph.Json.Basic
import Mathlib.Data.List.Nodup

/-!
# Reading JSON values that have been written

Lists, optional values and numbers are read as they were written if their elements are. A record
that is written as an object with distinct names is found part by part (`Members.Has`), also if it
stands beside other parts in a larger object.
-/

namespace InteropGraph.Json

variable {α : Type} {read : Json → Option α} {write : α → Json}

/-! ### Values -/

theorem below?_ofNat {bound n : Nat} (h : n < bound) : (ofNat n).below? bound = some n :=
  if_pos h

theorem uint32?_ofNat (n : UInt32) : (ofNat n.toNat).uint32? = some n := by
  unfold uint32?
  rw [below?_ofNat n.toNat_lt_size, Option.map_some, UInt32.ofNat_toNat]

theorem uint64?_ofNat (n : UInt64) : (ofNat n.toNat).uint64? = some n := by
  unfold uint64?
  rw [below?_ofNat n.toNat_lt_size, Option.map_some, UInt64.ofNat_toNat]

/-- A finite double is read as it was written. -/
theorem float?_ofFloat {x : Float} (h : x.isFinite = true) : (ofFloat x).float? = some x := by
  unfold ofFloat
  rw [if_pos h]
  rfl

/-- A list is read if each of its items is. -/
theorem listOf?_ofList {items : List α} (h : ∀ a ∈ items, read (write a) = some a) :
    listOf? read (ofList write items) = some items := by
  show (items.map write).mapM read = some items
  induction items with
  | nil => rfl
  | cons a items ih =>
    rw [List.map_cons, List.mapM_cons, h a List.mem_cons_self,
      ih fun b hb => h b (List.mem_cons_of_mem a hb)]
    rfl

/-- A value that is never written as null is told from none. -/
theorem orNull?_ofOption {value : Option α}
    (h : ∀ a ∈ value, read (write a) = some a ∧ write a ≠ .null) :
    orNull? read (ofOption write value) = some value := by
  cases value with
  | none => rfl
  | some a =>
    obtain ⟨hread, hnull⟩ := h a rfl
    show orNull? read (write a) = some (some a)
    unfold orNull?
    split
    · exact absurd ‹_› hnull
    · rw [hread, Option.map_some]

/-! ### Records -/

namespace Members

variable {m parts : Members} {names : List String}

/-- The parts `parts` are found in `m` under their names. -/
def Has (m parts : Members) : Prop :=
  ∀ p ∈ parts, m.lookup p.1 = some p.2

theorem has_cons {name : String} {j : Json} :
    m.Has ((name, j) :: parts) ↔ m.lookup name = some j ∧ m.Has parts :=
  List.forall_mem_cons

/-- An object has the parts of two lists if it has those of each. -/
theorem has_append {parts' : Members} :
    m.Has (parts ++ parts') ↔ m.Has parts ∧ m.Has parts' :=
  List.forall_mem_append

/-- If the names are distinct, then a part is found under its name. -/
theorem has_self (h : (m.map Prod.fst).Nodup) : m.Has m := by
  induction m with
  | nil => exact nofun
  | cons p m ih =>
    obtain ⟨hp, hm⟩ := List.nodup_cons.mp h
    rintro ⟨name, j⟩ hmem
    rcases List.mem_cons.mp hmem with rfl | hmem
    · exact List.lookup_cons_self
    · have hne : name ≠ p.1 := by
        rintro rfl
        exact hp (List.mem_map.mpr ⟨_, hmem, rfl⟩)
      rw [List.lookup_cons, beq_false_of_ne hne]
      exact ih hm (name, j) hmem

/-- If the names are distinct, then none is given twice. -/
theorem unambiguous_of_nodup (h : (m.map Prod.fst).Nodup) : m.Unambiguous names := by
  intro n _
  have hcount : (m.filter (·.1 = n)).length = (m.map Prod.fst).count n := by
    rw [List.count_eq_length_filter, List.filter_map, List.length_map]
    rfl
  rw [hcount]
  exact List.nodup_iff_count_le_one.mp h n

/-- A part that is there is read. -/
theorem required_of_lookup {name : String} {j : Json} (h : m.lookup name = some j) {a : α}
    (hread : read j = some a) : m.required name read = some a := by
  unfold required
  rw [h, Option.bind_some, hread]

/-- A part that is there is read, whatever it would be otherwise. -/
theorem optional_of_lookup {name : String} {j : Json} (h : m.lookup name = some j) {a : α}
    (hread : read j = some a) (fallback : α) : m.optional name read fallback = some a := by
  unfold optional
  rw [h]
  exact hread

/-- A part that is left out is read as the fallback. -/
theorem optional_of_missing {name : String} (h : m.lookup name = none) (fallback : α) :
    m.optional name read fallback = some fallback := by
  unfold optional
  rw [h]

section

variable (name : String) (j : Json) (m : Members) (read : Json → Option α) (fallback : α)

@[simp] theorem required_cons_self : required ((name, j) :: m) name read = read j := by
  unfold required
  rw [List.lookup_cons_self, Option.bind_some]

@[simp] theorem required_cons_of_ne {name' : String} (h : name ≠ name') :
    required ((name', j) :: m) name read = required m name read := by
  unfold required
  rw [List.lookup_cons, beq_false_of_ne h]

@[simp] theorem optional_cons_self :
    optional ((name, j) :: m) name read fallback = read j := by
  unfold optional
  rw [List.lookup_cons_self]

@[simp] theorem optional_cons_of_ne {name' : String} (h : name ≠ name') :
    optional ((name', j) :: m) name read fallback = optional m name read fallback := by
  unfold optional
  rw [List.lookup_cons, beq_false_of_ne h]

end

end Members

/-- An object without repeated keys is read with all its members. -/
theorem objectMembers?_object {m : Members} (h : (m.map Prod.fst).Nodup) (names : List String) :
    (Json.object m).objectMembers? names = some m :=
  if_pos (Members.unambiguous_of_nodup h)

theorem members?_object {m : Members} (h : (m.map Prod.fst).Nodup) (names : List String) :
    (Json.object m).members? names = some m :=
  objectMembers?_object h names

end InteropGraph.Json
