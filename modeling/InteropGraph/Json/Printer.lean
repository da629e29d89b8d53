import InteropGraph.Json.Basic
import InteropGraph.Number.Shortest

/-!
# Writing JSON text

`Json.compact` writes a value without blanks; `Json.pretty` puts every part on a line of its own,
indented by two blanks for each level.
-/

namespace InteropGraph.Json

/-- Doubles are positional from `0.00001` up to below `10^16`. What is not a finite number is
null. -/
def floatStyle : Number.FloatStyle :=
  { least := -5, bound := 16, plusSign := true,
    infinity := "null", negativeInfinity := "null", nan := "null" }

/-- The hexadecimal digit for a number below 16. -/
def hexChar (n : Nat) : Char :=
  Nat.digitChar n

/-- A character as it is written between quotes. -/
def escapeChar (c : Char) : List Char :=
  if c = '"' then ['\\', '"']
  else if c = '\\' then ['\\', '\\']
  else if c = '\x08' then ['\\', 'b']
  else if c = '\x0c' then ['\\', 'f']
  else if c = '\n' then ['\\', 'n']
  else if c = '\r' then ['\\', 'r']
  else if c = '\t' then ['\\', 't']
  else if c.toNat < 0x20 then
    ['\\', 'u', '0', '0', hexChar (c.toNat / 16), hexChar (c.toNat % 16)]
  else [c]

/-- A text between quotes. -/
def quote (s : String) : String :=
  String.ofList ('"' :: s.toList.flatMap escapeChar ++ ['"'])

/-- The text of a value that has no parts. -/
def scalarText : Json → String
  | .null => "null"
  | .bool true => "true"
  | .bool false => "false"
  | .int i => toString i
  | .float x => floatStyle.write x
  | .text s => quote s
  | .list _ => "[]"
  | .object _ => "\x7b\x7d"

mutual

/-- A value on one line, without blanks. -/
def compact : Json → String
  | .list items => "[" ++ compactItems items ++ "]"
  | .object members => "\x7b" ++ compactMembers members ++ "\x7d"
  | j => scalarText j

/-- Items with commas between them. -/
def compactItems : List Json → String
  | [] => ""
  | [j] => compact j
  | j :: rest => compact j ++ "," ++ compactItems rest

/-- Members with commas between them. -/
def compactMembers : List (String × Json) → String
  | [] => ""
  | [(k, j)] => quote k ++ ":" ++ compact j
  | (k, j) :: rest => quote k ++ ":" ++ compact j ++ "," ++ compactMembers rest

end

/-- A new line with `depth` levels of indentation. -/
def newline (depth : Nat) : String :=
  "\n" ++ String.ofList (List.replicate (2 * depth) ' ')

mutual

/-- A value with its parts on lines of their own, inside `depth` levels. -/
def prettyAt (depth : Nat) : Json → String
  | .list (j :: rest) =>
    "[" ++ newline (depth + 1) ++ prettyAt (depth + 1) j ++ prettyItems depth rest ++ "]"
  | .object ((k, j) :: rest) =>
    "\x7b" ++ newline (depth + 1) ++ quote k ++ ": " ++ prettyAt (depth + 1) j ++
      prettyMembers depth rest ++ "\x7d"
  | j => scalarText j

/-- The items after the first. -/
def prettyItems (depth : Nat) : List Json → String
  | [] => newline depth
  | j :: rest => "," ++ newline (depth + 1) ++ prettyAt (depth + 1) j ++ prettyItems depth rest

/-- The members after the first. -/
def prettyMembers (depth : Nat) : List (String × Json) → String
  | [] => newline depth
  | (k, j) :: rest =>
    "," ++ newline (depth + 1) ++ quote k ++ ": " ++ prettyAt (depth + 1) j ++
      prettyMembers depth rest

end

/-- A value with its parts on lines of their own; there is no newline at the end. -/
def pretty (j : Json) : String :=
  prettyAt 0 j

end InteropGraph.Json
