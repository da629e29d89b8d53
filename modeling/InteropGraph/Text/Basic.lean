/-!
# Blanks, trimming and separators

Text is split, cut and trimmed as a list of characters. A blank is a character with the Unicode
property White_Space.
-/

namespace InteropGraph.Text

/-- The characters with the Unicode property White_Space. -/
def isBlank (c : Char) : Bool :=
  let n := c.toNat
  (9 ≤ n && n ≤ 13) || n == 0x20 || n == 0x85 || n == 0xA0 || n == 0x1680 ||
    (0x2000 ≤ n && n ≤ 0x200A) || n == 0x2028 || n == 0x2029 || n == 0x202F || n == 0x205F ||
    n == 0x3000

/-- `s` without the longest end of characters that satisfy `p`, which is Mathlib's
`List.rdropWhile`. -/
def dropTrailing (p : Char → Bool) (s : List Char) : List Char :=
  (s.reverse.dropWhile p).reverse

/-- `s` without blanks at either end. -/
def trim (s : List Char) : List Char :=
  dropTrailing isBlank (s.dropWhile isBlank)

/-- The parts of `s` between the separators; the separator comes first here as it does for `cut`. -/
abbrev split (sep : Char) (s : List Char) : List (List Char) :=
  s.splitOn sep

/-- The text before the first `sep`, and the text after it if there is one. -/
def cut (sep : Char) : List Char → List Char × Option (List Char)
  | [] => ([], none)
  | c :: s =>
    if c = sep then ([], some s)
    else
      let (before, after) := cut sep s
      (c :: before, after)

/-- `s` without the text `start`, if it begins with it, and `s` itself otherwise. -/
def withoutStart (start s : List Char) : List Char :=
  (start.isPrefixOf? s).getD s

/-- The value of a run of decimal digits; nothing for an empty or any other text. -/
def digits? (s : List Char) : Option Nat :=
  if s ≠ [] ∧ s.all Char.isDigit then
    some (s.foldl (fun n c => 10 * n + (c.toNat - '0'.toNat)) 0)
  else none

end InteropGraph.Text
