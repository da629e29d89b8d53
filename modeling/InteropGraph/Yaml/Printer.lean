import InteropGraph.Yaml.Plain
import InteropGraph.Number.Shortest

/-!
# Writing YAML text

Maps and lists are written as blocks. The items of a list in a map stand in the column of their key,
everything else is indented by two blanks. A text is plain if it reads back as itself; otherwise it
is written between single marks, as a literal block if it has several lines, or between double marks
with escapes if nothing else can show it.
-/

namespace InteropGraph.Yaml

/-! ### Scalars -/

/-- Doubles are positional from `0.00001` up to below `10^16`. -/
def floatStyle : Number.FloatStyle :=
  { least := -5, bound := 16, plusSign := false,
    infinity := ".inf", negativeInfinity := "-.inf", nan := ".nan" }

/-- The words for truth values in older documents. -/
def isOldTruth (s : String) : Bool :=
  s ∈ ["y", "Y", "yes", "Yes", "YES", "n", "N", "no", "No", "NO", "true", "True", "TRUE", "false",
    "False", "FALSE", "on", "On", "ON", "off", "Off", "OFF"]

/-- Whether a character shows itself outside of double marks. -/
def isPrintable (c : Char) : Bool :=
  let n := c.toNat
  n = 10 || (0x20 ≤ n && n ≤ 0x7E) || (0xA0 ≤ n && n ≤ 0xFFFD && n ≠ 0xFEFF)

/-- Whether `s`, which stands after `before`, has a character that ends a plain scalar: a colon at
the end of a word, or a number sign at its beginning. -/
def endsPlain (before : Char) : List Char → Bool
  | [] => false
  | c :: s =>
    (c = ':' && endsWord s) || (c = '#' && (isBlank before || isBreak before)) || endsPlain c s

/-- Whether a plain scalar can begin with `s`. -/
def startsPlain : List Char → Bool
  | [] => true
  | c :: s =>
    if c = '-' ∨ c = '?' ∨ c = ':' then
      !endsWord s && (['-', '-', '-'].isPrefixOf? (c :: s)).isNone
    else !isIndicator c && (['.', '.', '.'].isPrefixOf? (c :: s)).isNone

/-- Whether two characters with the given properties follow each other in `s`. -/
def hasPair (p q : Char → Bool) : List Char → Bool
  | c :: d :: s => (p c && q d) || hasPair p q (d :: s)
  | _ => false

/-- Whether the first or the last character of `s` satisfies `p`. -/
def atEnds (p : Char → Bool) (s : List Char) : Bool :=
  s.head?.any p || s.getLast?.any p

/-- Tabs are not among the blanks that decide how a text is written. -/
def isSpace (c : Char) : Bool := c = ' '

/-- Whether blanks before an end of line, or characters that do not show, need double marks. -/
def needsEscapes (s : List Char) : Bool :=
  !s.all isPrintable || hasPair isSpace isBreak s

/-- Whether a text can be written without quotes. -/
def allowsPlain (s : List Char) : Bool :=
  !needsEscapes s && !s.any isBreak && !atEnds isSpace s && startsPlain s &&
    match s with
    | c :: s => !endsPlain c s
    | [] => true

/-- Whether a text can be written in single quotes. -/
def allowsSingle (s : List Char) : Bool :=
  !needsEscapes s && !hasPair isBreak isSpace s

/-- Whether a text can be written as a literal block. -/
def allowsLiteral (s : List Char) : Bool :=
  !needsEscapes s && !s.getLast?.any isSpace

/-- A number as hexadecimal digits, at least `width`. -/
def hexDigits (width n : Nat) : List Char :=
  let digits := (Nat.toDigits 16 n).map Char.toUpper
  List.replicate (width - digits.length) '0' ++ digits

/-- A character between double marks. -/
def escapeChar (c : Char) : List Char :=
  let n := c.toNat
  if n = 0 then ['\\', '0']
  else if n = 7 then ['\\', 'a']
  else if n = 8 then ['\\', 'b']
  else if n = 9 then ['\\', 't']
  else if n = 10 then ['\\', 'n']
  else if n = 11 then ['\\', 'v']
  else if n = 12 then ['\\', 'f']
  else if n = 13 then ['\\', 'r']
  else if n = 0x1B then ['\\', 'e']
  else if c = '"' ∨ c = '\\' then ['\\', c]
  else if n = 0x85 then ['\\', 'N']
  else if n = 0x2028 then ['\\', 'L']
  else if n = 0x2029 then ['\\', 'P']
  else if isPrintable c then [c]
  else if n ≤ 0xFF then '\\' :: 'x' :: hexDigits 2 n
  else if n ≤ 0xFFFF then '\\' :: 'u' :: hexDigits 4 n
  else '\\' :: 'U' :: hexDigits 8 n

/-- A text in double quotes, with escapes. -/
def doubleQuoted (s : List Char) : String :=
  String.ofList ('"' :: s.flatMap escapeChar ++ ['"'])

/-- A text in single quotes, where a quote is doubled. -/
def singleQuoted (s : List Char) : String :=
  String.ofList ('\'' :: s.flatMap (fun c => if c = '\'' then [c, c] else [c]) ++ ['\''])

/-- The lines of a literal block. Its header tells whether the text begins with a blank, and how
many ends of line it has at its end. -/
def literal (s : List Char) : List String :=
  let hint := if s.head?.any fun c => isSpace c || isBreak c then "2" else ""
  let ends := s.reverse.takeWhile (· = '\n')
  let chomping :=
    if ends = [] then "-" else if ends.length = s.length ∨ 1 < ends.length then "+" else ""
  let parts := Text.split '\n' s
  let lines := if ends = [] then parts else parts.dropLast
  ("|" ++ hint ++ chomping) :: lines.map String.ofList

/-- A text without ends of line. -/
def oneLine (s : String) : String :=
  let cs := s.toList
  if !isOldTruth s && !isAmbiguous s && allowsPlain cs then s
  else if allowsSingle cs then singleQuoted cs
  else doubleQuoted cs

/-- The lines of a text, the later ones without indentation. -/
def textLines (s : String) : List String :=
  if s.toList.contains '\n' then
    if allowsLiteral s.toList then literal s.toList else [doubleQuoted s.toList]
  else [oneLine s]

/-! ### Blocks -/

/-- Lines with two blanks before each that is not empty. -/
def indent (lines : List String) : List String :=
  lines.map fun l => if l.isEmpty then l else "  " ++ l

/-- Lines behind a sign in the first of them. -/
def behind (sign : String) : List String → List String
  | [] => []
  | l :: rest => (sign ++ l) :: indent rest

/-- A key that needs no mark: it has one line and at most 128 bytes. -/
def simpleKey? : Node → Option String
  | .scalar s plain =>
    if s.toList.any isBreak || 128 < s.utf8ByteSize then none
    else some (if plain then s else oneLine s)
  | _ => none

/-- The lines of an entry, with those of its key and its value. -/
def entryLines (key value : Node) (keyLines valueLines : List String) : List String :=
  match simpleKey? key, value with
  | some k, .list (_ :: _) => (k ++ ":") :: valueLines
  | some k, .map (_ :: _) => (k ++ ":") :: indent valueLines
  | some k, _ => behind (k ++ ": ") valueLines
  | none, _ => behind "? " keyLines ++ behind ": " valueLines

mutual

/-- The lines of a node; the later lines of a scalar, and no others, are to be indented. -/
def Node.lines : Node → List String
  | .scalar s true => [s]
  | .scalar s false => textLines s
  | .list [] => ["[]"]
  | .list items => itemsLines items
  | .map [] => ["\x7b\x7d"]
  | .map entries => entriesLines entries

/-- The lines of the items of a list. -/
def itemsLines : List Node → List String
  | [] => []
  | n :: rest => behind "- " n.lines ++ itemsLines rest

/-- The lines of the entries of a map. -/
def entriesLines : List (Node × Node) → List String
  | [] => []
  | (k, n) :: rest => entryLines k n k.lines n.lines ++ entriesLines rest

end

/-- A document as text; every line has an end. -/
def Node.write (n : Node) : String :=
  let lines := match n with
    | .scalar .. => behind "" n.lines
    | _ => n.lines
  String.join (lines.map (· ++ "\n"))

/-! ### JSON as documents -/

mutual

/-- The node that stands for a value. -/
def Node.ofJson : Json → Node
  | .null => .scalar "null" true
  | .bool b => .scalar (if b then "true" else "false") true
  | .int i => .scalar (toString i) true
  | .float x => .scalar (floatStyle.write x) true
  | .text s => .scalar s false
  | .list items => .list (nodesOfJson items)
  | .object members => .map (entriesOfJson members)

/-- The nodes for the items of a list. -/
def nodesOfJson : List Json → List Node
  | [] => []
  | j :: rest => .ofJson j :: nodesOfJson rest

/-- The nodes for the members of an object, whose keys are texts. -/
def entriesOfJson : List (String × Json) → List (Node × Node)
  | [] => []
  | (k, j) :: rest => (.scalar k false, .ofJson j) :: entriesOfJson rest

end

end InteropGraph.Yaml
