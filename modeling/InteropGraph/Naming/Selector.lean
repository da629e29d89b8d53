import InteropGraph.Text.Basic

/-!
# Selectors and naming conventions

A selector is a method name with a colon after each part that takes an argument:
`initWithName:age:`. Names are written in camel case, so a word inside a name ends where the next
character is not an ASCII lowercase letter; the conventions on who owns a returned object are
stated in terms of such words.
-/

namespace InteropGraph.Naming

/-- The parts between the colons, without the empty ones. -/
def partsOf (selector : List Char) : List (List Char) :=
  (Text.split ':' selector).filter (· ≠ [])

/-- The parts between the colons, without the empty ones. -/
def selectorParts (selector : String) : List String :=
  (partsOf selector.toList).map String.ofList

/-- `part` with its first letter in upper case. -/
def capitalize : List Char → List Char
  | [] => []
  | c :: s => c.toUpper :: s

/-- Joins parts in camel case: `doThing`, `withValue` gives `doThingWithValue`. -/
def camelJoin : List (List Char) → List Char
  | [] => []
  | part :: parts => part ++ (parts.map capitalize).flatten

/-- Whether a word may end before `s`. -/
def atWordEnd : List Char → Bool
  | [] => true
  | c :: _ => !c.isLower

/-- The rest of `s` after `word`, if `s` begins with it as a whole word. -/
def afterWord? (word s : List Char) : Option (List Char) :=
  match word.isPrefixOf? s with
  | some rest => if atWordEnd rest then some rest else none
  | none => none

/-- Whether `word` stands somewhere in `s` and ends there as a word. -/
def containsWord (word : List Char) : List Char → Bool
  | [] => (afterWord? word []).isSome
  | c :: s => (afterWord? word (c :: s)).isSome || containsWord word s

/-- The families of methods that the conventions know by the first word of the selector. -/
inductive Family where
  | ordinary
  | alloc
  | copy
  | mutableCopy
  | new
  | init
deriving DecidableEq, Repr

/-- The caller owns what a method of any family but the ordinary one returns. -/
def Family.ownsReturned (f : Family) : Bool :=
  f ≠ .ordinary

/-- The words that begin the selectors of each family, in the order in which they are tried. -/
def familyWords : List (List Char × Family) :=
  [("mutableCopy".toList, .mutableCopy), ("alloc".toList, .alloc), ("copy".toList, .copy),
   ("new".toList, .new), ("init".toList, .init)]

/-- A selector without the underscores at its start. -/
def withoutUnderscores (selector : List Char) : List Char :=
  selector.dropWhile (· == '_')

/-- The family of a method with this selector. -/
def familyOf (selector : List Char) : Family :=
  match familyWords.find? fun w => (afterWord? w.1 (withoutUnderscores selector)).isSome with
  | some w => w.2
  | none => .ordinary

/-- The family of a method with this selector. -/
def methodFamily (selector : String) : Family :=
  familyOf selector.toList

/-- Whether a function hands over what it returns: its name has the word `Create` or `Copy`. -/
def handsOverResult (function : String) : Bool :=
  containsWord "Create".toList function.toList || containsWord "Copy".toList function.toList

end InteropGraph.Naming
