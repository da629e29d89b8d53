/-!
# JSON values

The members of an object are kept in the order and number in which they were written. Numbers are
integers of 64 bits, with or without sign, or doubles.

The readers of this module take a value apart. `members?` gives the named parts of a record, which
is an object or a list of the parts in their order.
-/

namespace InteropGraph

/-- A JSON value. -/
inductive Json where
  | null
  | bool (b : Bool)
  | int (i : Int)
  | float (x : Float)
  | text (s : String)
  | list (items : List Json)
  | object (members : List (String × Json))
deriving Inhabited

namespace Json

/-- The value, if it is a text. -/
def text? : Json → Option String
  | .text s => some s
  | _ => none

/-- The value, if it is a truth value. -/
def bool? : Json → Option Bool
  | .bool b => some b
  | _ => none

/-- A natural number below `bound`. -/
def below? (bound : Nat) : Json → Option Nat
  | .int (.ofNat n) => if n < bound then some n else none
  | _ => none

/-- The value, if it is an integer from 0 to 2³² - 1. -/
def uint32? (j : Json) : Option UInt32 :=
  (j.below? UInt32.size).map UInt32.ofNat

/-- The value, if it is an integer from 0 to 2⁶⁴ - 1. -/
def uint64? (j : Json) : Option UInt64 :=
  (j.below? UInt64.size).map UInt64.ofNat

/-- A number as a double. -/
def float? : Json → Option Float
  | .float x => some x
  | .int i => some (Float.ofInt i)
  | _ => none

/-- The items of a list, if all of them can be read. -/
def listOf? (read : Json → Option α) : Json → Option (List α)
  | .list items => items.mapM read
  | _ => none

/-- The value that `read` finds, or nothing for null. -/
def orNull? (read : Json → Option α) : Json → Option (Option α)
  | .null => some none
  | j => (read j).map some

/-- The value as `read` finds it, where null stands for no value. -/
def ofOption (write : α → Json) : Option α → Json
  | none => .null
  | some a => write a

/-- A list of what is written for each item. -/
def ofList (write : α → Json) (items : List α) : Json :=
  .list (items.map write)

/-- A natural number. -/
def ofNat (n : Nat) : Json := .int n

/-- A double as a number; what is not a finite number is null. -/
def ofFloat (x : Float) : Json :=
  if x.isFinite then .float x else .null

/-! ### Records -/

/-- The parts of a record by name. -/
abbrev Members := List (String × Json)

/-- Whether no name of `names` has two parts. -/
def Members.Unambiguous (members : Members) (names : List String) : Prop :=
  ∀ n ∈ names, (members.filter (·.1 = n)).length ≤ 1

instance (members : Members) (names : List String) : Decidable (members.Unambiguous names) :=
  inferInstanceAs (Decidable (∀ n ∈ names, _))

/-- The parts of an object; none of the parts named may be given twice. -/
def objectMembers? (names : List String) : Json → Option Members
  | .object members => if Members.Unambiguous members names then some members else none
  | _ => none

/-- The parts of a record with the given part names: an object, or a list of the first parts in
their order. -/
def members? (names : List String) : Json → Option Members
  | .list items => if items.length ≤ names.length then some (names.zip items) else none
  | j => j.objectMembers? names

/-- The part `name`, which has to be there. -/
def Members.required (members : Members) (name : String) (read : Json → Option α) : Option α :=
  (members.lookup name).bind read

/-- The part `name`, or `fallback` if it is missing. -/
def Members.optional (members : Members) (name : String) (read : Json → Option α) (fallback : α) :
    Option α :=
  match members.lookup name with
  | none => some fallback
  | some j => read j

end Json

end InteropGraph
