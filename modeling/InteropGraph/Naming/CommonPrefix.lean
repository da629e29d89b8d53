import InteropGraph.Text.Basic

/-!
# Common prefixes of names

The constants of an enumeration usually share a prefix of whole words, which
`commonPrefix` finds: `NSOrderedAscending` and `NSOrderedSame` share `NSOrdered`.
-/

namespace InteropGraph.Naming

/-- The longest start that two texts share. -/
def sharedStart : List Char → List Char → List Char
  | a :: s, b :: t => if a = b then a :: sharedStart s t else []
  | _, _ => []

/-- Whether a word begins in `name` after its first `n + 1` characters: with a capital or after an
underscore, and not with a digit. -/
def wordBeginsAfter (name : List Char) (n : Nat) : Bool :=
  match name.drop n with
  | before :: c :: _ => !c.isDigit && (c.isUpper || before = '_')
  | _ => false

/-- The greatest length up to the given one after which every name begins a word; zero if there is
none. -/
def wordLength (names : List (List Char)) : Nat → Nat
  | 0 => 0
  | n + 1 => if names.all (wordBeginsAfter · n) then n + 1 else wordLength names n

/-- The longest prefix of whole words that all the names share. Fewer than two names share none. -/
def sharedPrefix : List (List Char) → List Char
  | first :: second :: others =>
    let start := (second :: others).foldl sharedStart first
    first.take (wordLength (first :: second :: others) start.length)
  | _ => []

/-- The longest prefix of whole words that all the names share. Fewer than two names share none. -/
def commonPrefix (names : List String) : String :=
  String.ofList (sharedPrefix (names.map String.toList))

end InteropGraph.Naming
