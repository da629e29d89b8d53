import InteropGraph.Text.Basic

/-!
# Platform versions

A version has a major, a minor and a subminor component, each of which may be unknown. An unknown
component compares equal to everything, and so does all that comes after it: `11` equals `11.0.1`.

- `Version.parse` reads `MAJOR[.MINOR[.SUBMINOR]]`; `x`, `X` and `*` are unknown components.
- `Version.display` writes a version without its unknown end.
- `Version.compare` compares component by component.
-/

namespace InteropGraph

/-- A platform version; a component without a value is unknown. -/
structure Version where
  major : Option UInt32
  minor : Option UInt32
  subminor : Option UInt32
deriving DecidableEq, Repr

namespace Version

/-- The version of which nothing is known. -/
def unknown : Version := ⟨none, none, none⟩

/-- A version with all three components. -/
def ofNumbers (major minor subminor : UInt32) : Version :=
  ⟨some major, some minor, some subminor⟩

/-- Whether no component is known. -/
def isUnknown (v : Version) : Bool :=
  v.major.isNone && v.minor.isNone && v.subminor.isNone

/-- The components from the most to the least significant. -/
def components (v : Version) : List (Option UInt32) :=
  [v.major, v.minor, v.subminor]

/-- Compares up to the first place where either side is unknown. -/
def compareComponents : List (Option UInt32) → List (Option UInt32) → Ordering
  | some a :: as, some b :: bs => (Ord.compare a b).then (compareComponents as bs)
  | _, _ => .eq

/-- Versions are compared component by component. -/
protected def compare (v w : Version) : Ordering :=
  compareComponents v.components w.components

/-- Whether `v` is later than `w`. -/
def isAfter (v w : Version) : Bool :=
  v.compare w == .gt

/-- Whether `v` is not earlier than `w`. -/
def isAtOrAfter (v w : Version) : Bool :=
  v.compare w != .lt

/-! ### Text -/

/-- A text that is no version. -/
structure Invalid where
  text : String
deriving DecidableEq, Repr

/-- What is said of a text that is no version. -/
def Invalid.message (e : Invalid) : String :=
  s!"invalid version '{e.text}' (expected MAJOR[.MINOR[.SUBMINOR]])"

/-- Reads a component: a sign for an unknown one, or a 32-bit decimal number, which may have a plus
sign and leading zeros. -/
def component? (s : List Char) : Option (Option UInt32) :=
  if s = ['x'] ∨ s = ['X'] ∨ s = ['*'] then some none
  else
    match Text.digits? (Text.withoutStart ['+'] s) with
    | some n => if n < UInt32.size then some (some (UInt32.ofNat n)) else none
    | none => none

/-- The version with the given components; those that are missing are unknown. -/
def ofComponents? : List (Option UInt32) → Option Version
  | [a] => some ⟨a, none, none⟩
  | [a, b] => some ⟨a, b, none⟩
  | [a, b, c] => some ⟨a, b, c⟩
  | _ => none

/-- Reads a version from text without surrounding blanks. -/
def ofTrimmed? (s : List Char) : Option Version :=
  if s = "unknown".toList then some unknown
  else ((Text.split '.' s).mapM component?).bind ofComponents?

/-- Reads a version; blanks around it do not count. -/
def parse (s : String) : Except Invalid Version :=
  match ofTrimmed? (Text.trim s.toList) with
  | some v => .ok v
  | none => .error ⟨s⟩

/-- A component in decimals, or `x` if it is not known. -/
def displayComponent : Option UInt32 → String
  | some n => toString n.toNat
  | none => "x"

/-- Writes a version without the unknown components at its end. -/
def display (v : Version) : String :=
  match v.major, v.minor, v.subminor with
  | none, none, none => "unknown"
  | a, none, none => displayComponent a
  | a, b, none => displayComponent a ++ "." ++ displayComponent b
  | a, b, c => displayComponent a ++ "." ++ displayComponent b ++ "." ++ displayComponent c

end Version

end InteropGraph
