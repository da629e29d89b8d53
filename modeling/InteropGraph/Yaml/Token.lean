import InteropGraph.Json.Reader

/-!
# The tokens of YAML text

Blocks are made by indentation, so the tokens for their ends have no characters of their own. What
a key is shows only at the colon after it: the token for a key, and the one for the map that begins
with it, are put in front of its tokens then. Documents consist of maps, lists and scalars; anchors,
tags, directives, block scalars and keys marked by `?` are refused.
-/

namespace InteropGraph.Yaml

/-- What a document is made of. -/
inductive Token where
  /-- A scalar; `plain` tells that it is not quoted. -/
  | scalar (text : String) (plain : Bool)
  | listStart
  | mapStart
  | blockEnd
  /-- The dash before an item of a block list. -/
  | entry
  | key
  | value
  | openList
  | closeList
  | openMap
  | closeMap
  | comma
  | documentStart
  | documentEnd
deriving DecidableEq, Repr

/-! ### Characters -/

/-- The white space within a line. -/
def isBlank (c : Char) : Bool :=
  c = ' ' || c = '\t'

/-- The characters that end a line. -/
def isBreak (c : Char) : Bool :=
  c = '\n' || c = '\u2028' || c = '\u2029'

/-- Whether a text ends, or goes on with a blank or a new line. -/
def endsWord (s : List Char) : Bool :=
  s.head?.all fun c => isBlank c || isBreak c

/-- Whether `s` begins with three times `c` as a word of its own, which marks the start or the end
of a document. -/
def isMark (c : Char) (s : List Char) : Bool :=
  ([c, c, c].isPrefixOf? s).any endsWord

/-- Whether a line begins with `---` or `...` as a word. -/
def isDocumentMark (s : List Char) : Bool :=
  isMark '-' s || isMark '.' s

/-- The characters that a document may hold. -/
def isAllowed (c : Char) : Bool :=
  let n := c.toNat
  n = 9 || n = 10 || n = 13 || (0x20 ≤ n && n ≤ 0x7E) || n = 0x85 ||
    (0xA0 ≤ n && n ≤ 0xFFFD && n ≠ 0xFEFF) || 0x10000 ≤ n

/-- A text with line feeds for its carriage returns and next-line characters. -/
def unifyLines : List Char → List Char
  | '\r' :: '\n' :: s => '\n' :: unifyLines s
  | c :: s => (if c = '\r' ∨ c = '\u0085' then '\n' else c) :: unifyLines s
  | [] => []

/-- The indicators, with which no plain scalar begins. -/
def isIndicator (c : Char) : Bool :=
  c ∈ ['-', '?', ':', ',', '[', ']', '{', '}', '#', '&', '*', '!', '|', '>', '\'', '"', '%', '@',
    '\u0060']

/-- The character that a letter stands for after a backslash. -/
def escaped? : Char → Option Char
  | '0' => some '\x00'
  | 'a' => some '\x07'
  | 'b' => some '\x08'
  | 't' => some '\t'
  | '\t' => some '\t'
  | 'n' => some '\n'
  | 'v' => some '\x0b'
  | 'f' => some '\x0c'
  | 'r' => some '\r'
  | 'e' => some '\x1b'
  | ' ' => some ' '
  | '"' => some '"'
  | '/' => some '/'
  | '\\' => some '\\'
  | 'N' => some '\u0085'
  | '_' => some '\u00a0'
  | 'L' => some '\u2028'
  | 'P' => some '\u2029'
  | _ => none

/-! ### Gaps -/

/-- Blanks and ends of lines inside a scalar. -/
structure Gap where
  /-- The blanks before the first end of line, in reverse. -/
  blanks : List Char := []
  /-- The first end of line, which is missing if it is escaped, and the later ones in reverse. -/
  breaks : Option (Option Char × List Char) := none
deriving DecidableEq, Repr

namespace Gap

/-- Whether nothing stands between two words. -/
def isEmpty (g : Gap) : Bool :=
  g.blanks.isEmpty && g.breaks.isNone

/-- The gap with a further blank or end of line. Blanks after an end of line do not count. -/
def add (g : Gap) (c : Char) : Gap :=
  match g.breaks with
  | none =>
    if isBreak c then { breaks := some (some c, []) } else { g with blanks := c :: g.blanks }
  | some (first, later) => if isBreak c then { g with breaks := some (first, c :: later) } else g

/-- What a gap stands for: a single end of line is a blank, and of several the first is dropped. -/
def text (g : Gap) : List Char :=
  match g.breaks with
  | none => g.blanks.reverse
  | some (some '\n', []) => [' ']
  | some (some '\n', later) => later.reverse
  | some (first, later) => first.toList ++ later.reverse

end Gap

/-! ### The state of the reader -/

/-- Where the reader is inside a quoted scalar. -/
inductive QuoteState where
  | content
  | escape
  /-- Inside the number of a character, with the count of digits to come. -/
  | number (missing : Nat) (value : Nat)
  /-- After a single mark, which ends the scalar unless a second one follows. -/
  | mark
deriving DecidableEq, Repr

/-- Where the reader is between or inside tokens. -/
inductive Mode where
  | between
  | comment
  /-- Inside the mark of a document, with the count of characters to come. -/
  | mark (missing : Nat)
  | plain (reversed : List Char) (gap : Gap)
  | quoted (double : Bool) (reversed : List Char) (gap : Gap) (state : QuoteState)
deriving DecidableEq, Repr

/-- A place where a key may have begun. -/
structure KeyStart where
  line : Nat
  column : Nat
  index : Nat
  /-- The number of tokens before it. -/
  before : Nat
  /-- Nothing but a key can stand here. -/
  required : Bool
deriving DecidableEq, Repr

/-- Where the scanner is: what it has read, and what may come next. -/
structure Scanner where
  /-- The tokens so far, in reverse, and their number. -/
  tokens : List Token := []
  count : Nat := 0
  line : Nat := 0
  column : Nat := 0
  index : Nat := 0
  /-- The indentation of the open blocks, innermost first. -/
  indents : List Nat := []
  /-- Where a key may have begun, in the innermost brackets. -/
  keyStart : Option KeyStart := none
  /-- The same for the brackets around them; empty outside of brackets. -/
  outer : List (Option KeyStart) := []
  /-- Whether a key may begin here. -/
  keyAllowed : Bool := true
  mode : Mode := .between

namespace Scanner

/-- Whether a bracket is open. -/
def inBrackets (s : Scanner) : Bool := !s.outer.isEmpty

/-- Adds a token behind those that have been read. -/
def emit (s : Scanner) (t : Token) : Scanner :=
  { s with tokens := t :: s.tokens, count := s.count + 1 }

/-- Puts tokens, given in reverse, behind the first `before` ones. -/
def insert (s : Scanner) (before : Nat) (ts : List Token) : Scanner :=
  let later := s.count - before
  { s with
    tokens := s.tokens.take later ++ ts ++ s.tokens.drop later
    count := s.count + ts.length }

/-- Whether the current column is not deeper than the innermost block. -/
def isShallow (s : Scanner) : Bool :=
  s.indents.head?.any fun n => s.column ≤ n

/-- Ends the blocks that are deeper than `column`; without a column, all of them. -/
def unroll (s : Scanner) (column : Option Nat) : Scanner :=
  if s.inBrackets then s
  else
    let ends (n : Nat) : Bool := column.all fun c => c < n
    (s.indents.takeWhile ends).foldl (fun s _ => s.emit .blockEnd)
      { s with indents := s.indents.dropWhile ends }

/-- Whether a block that begins in `column` is a new one. -/
def isDeeper (s : Scanner) (column : Nat) : Bool :=
  !s.inBrackets && s.indents.head?.all fun n => n < column

/-- Gives up the place where a key may have begun. -/
def dropKey? (s : Scanner) : Option Scanner :=
  match s.keyStart with
  | some k => if k.required then none else some { s with keyStart := none }
  | none => some s

/-- Notes that a key may begin here. -/
def noteKey? (s : Scanner) : Option Scanner :=
  if s.keyAllowed then
    s.dropKey?.map fun s =>
      { s with
        keyStart := some {
          line := s.line, column := s.column, index := s.index, before := s.count
          required := !s.inBrackets && s.indents.head? = some s.column } }
  else some s

/-- A key stands on one line and is not too long. -/
def isStale (s : Scanner) (k : KeyStart) : Bool :=
  k.line < s.line || k.index + 1024 < s.index

/-- Gives up the places where a key can no longer have begun. -/
def dropStale? (s : Scanner) : Option Scanner :=
  let stale (k : Option KeyStart) : Bool := k.any s.isStale
  let starts := s.keyStart :: s.outer
  if starts.any fun k => stale k && k.any KeyStart.required then none
  else
    let keep (k : Option KeyStart) : Option KeyStart := if stale k then none else k
    some { s with keyStart := keep s.keyStart, outer := s.outer.map keep }

/-! ### Beginnings of tokens -/

/-- Reads an opening bracket; inside there may be keys. -/
def openBracket? (s : Scanner) (t : Token) : Option Scanner :=
  s.noteKey?.map fun s =>
    { s.emit t with keyStart := none, outer := s.keyStart :: s.outer, keyAllowed := true }

/-- Reads a closing bracket; behind it the collection may still turn out to be a key. -/
def closeBracket? (s : Scanner) (t : Token) : Option Scanner :=
  s.dropKey?.map fun s =>
    match s.outer with
    | [] => { s.emit t with keyAllowed := false }
    | k :: outer => { s.emit t with keyStart := k, outer, keyAllowed := false }

/-- A dash before an item. -/
def entry? (s : Scanner) : Option Scanner :=
  let s? :=
    if s.inBrackets then some s
    else if s.keyAllowed then
      some (if s.isDeeper s.column then
        { s.emit .listStart with indents := s.column :: s.indents } else s)
    else none
  (s?.bind dropKey?).map fun s => { s.emit .entry with keyAllowed := true }

/-- A colon before a value. -/
def value? (s : Scanner) : Option Scanner :=
  match s.keyStart with
  | some k =>
    let deeper := s.isDeeper k.column
    let s := s.insert k.before (if deeper then [.key, .mapStart] else [.key])
    some { s.emit .value with
      indents := if deeper then k.column :: s.indents else s.indents
      keyStart := none
      keyAllowed := false }
  | none =>
    if s.inBrackets then some { s.emit .value with keyAllowed := false }
    else if s.keyAllowed then
      let s := if s.isDeeper s.column then
        { s.emit .mapStart with indents := s.column :: s.indents } else s
      some (s.emit .value)
    else none

/-- Begins a scalar, which may turn out to be a key. -/
def startScalar? (s : Scanner) (mode : Mode) : Option Scanner :=
  s.noteKey?.map fun s => { s with keyAllowed := false, mode }

/-- The token that begins with `c`, which is neither a blank nor the beginning of a comment. -/
def begin? (s : Scanner) (c : Char) (rest : List Char) : Option Scanner :=
  if s.column = 0 ∧ isDocumentMark (c :: rest) then
    ((s.unroll none).dropKey?).map fun s =>
      { s.emit (if c = '-' then .documentStart else .documentEnd) with
        keyAllowed := false, mode := .mark 2 }
  else if s.column = 0 ∧ c = '%' then none
  else
    match c with
    | '[' => s.openBracket? .openList
    | '{' => s.openBracket? .openMap
    | ']' => s.closeBracket? .closeList
    | '}' => s.closeBracket? .closeMap
    | ',' => s.dropKey?.map fun s => { s.emit .comma with keyAllowed := true }
    | '\'' => s.startScalar? (.quoted false [] {} .content)
    | '"' => s.startScalar? (.quoted true [] {} .content)
    | _ =>
      if c = '-' ∧ endsWord rest then s.entry?
      else if c = ':' ∧ (s.inBrackets ∨ endsWord rest) then s.value?
      else if c = '?' ∧ (s.inBrackets ∨ endsWord rest) then none
      else if !isBlank c ∧ (!isIndicator c ∨ c = '-' ∨ c = '?' ∨ c = ':') then
        s.startScalar? (.plain [c] {})
      else none

/-- A character where no token is open. A tab may not stand where a key may begin. -/
def fresh? (s : Scanner) (c : Char) (rest : List Char) : Option Scanner :=
  let s := { s with mode := .between }
  if c = ' ' ∨ (c = '\t' ∧ (s.inBrackets ∨ !s.keyAllowed)) then some s
  else if c = '#' then some { s with mode := .comment }
  else if isBreak c then some { s with keyAllowed := s.keyAllowed || !s.inBrackets }
  else s.dropStale?.bind fun s => (s.unroll (some s.column)).begin? c rest

/-! ### Insides of tokens -/

/-- Ends a plain scalar, after the gap. -/
def endPlain (s : Scanner) (reversed : List Char) (gap : Gap) : Scanner :=
  { s.emit (.scalar (String.ofList reversed.reverse) true) with
    keyAllowed := s.keyAllowed || gap.breaks.isSome, mode := .between }

/-- Ends a quoted scalar. -/
def endQuoted (s : Scanner) (reversed : List Char) : Scanner :=
  { s.emit (.scalar (String.ofList reversed.reverse) false) with mode := .between }

/-- The characters with a meaning between brackets. -/
def isFlowMark (c : Char) : Bool :=
  c ∈ [',', '[', ']', '{', '}']

/-- A character inside a plain scalar or after it. -/
def inPlain? (s : Scanner) (reversed : List Char) (gap : Gap) (c : Char) (rest : List Char) :
    Option Scanner :=
  if isBlank c ∨ isBreak c then
    if gap.breaks.isSome ∧ c = '\t' ∧ s.isShallow then none
    else some { s with mode := .plain reversed (gap.add c) }
  else if (gap.breaks.isSome ∧ !s.inBrackets ∧ s.isShallow) ∨ (!gap.isEmpty ∧ c = '#') ∨
      (s.column = 0 ∧ isDocumentMark (c :: rest)) then
    (s.endPlain reversed gap).fresh? c rest
  else if s.inBrackets ∧ c = ':' ∧ rest.head?.any (fun d => isFlowMark d || d = '?') then none
  else if (c = ':' ∧ endsWord rest) ∨ (s.inBrackets ∧ isFlowMark c) then
    (s.endPlain reversed gap).fresh? c rest
  else some { s with mode := .plain (c :: gap.text.reverse ++ reversed) {} }

/-- A character inside a quoted scalar. -/
def inQuoted? (s : Scanner) (double : Bool) (reversed : List Char) (gap : Gap) (state : QuoteState)
    (c : Char) (rest : List Char) : Option Scanner :=
  let go (reversed : List Char) (gap : Gap) (state : QuoteState) : Option Scanner :=
    some { s with mode := .quoted double reversed gap state }
  match state with
  | .content =>
    if s.column = 0 ∧ isDocumentMark (c :: rest) then none
    else if isBlank c ∨ isBreak c then go reversed (gap.add c) .content
    else
      let reversed := gap.text.reverse ++ reversed
      if double ∧ c = '"' then some (s.endQuoted reversed)
      else if double ∧ c = '\\' then go reversed {} .escape
      else if !double ∧ c = '\'' then go reversed {} .mark
      else go (c :: reversed) {} .content
  | .mark =>
    if c = '\'' then go (c :: reversed) {} .content else (s.endQuoted reversed).fresh? c rest
  | .escape =>
    if isBreak c then go reversed { breaks := some (none, []) } .content
    else if c = 'x' then go reversed {} (.number 2 0)
    else if c = 'u' then go reversed {} (.number 4 0)
    else if c = 'U' then go reversed {} (.number 8 0)
    else (escaped? c).bind fun e => go (e :: reversed) {} .content
  | .number missing value =>
    (Json.hexDigit? c).bind fun d =>
      let value := 16 * value + d
      if 1 < missing then go reversed {} (.number (missing - 1) value)
      else if value.isValidChar then go (Char.ofNat value :: reversed) {} .content
      else none

/-- Moves on by the character `c`. -/
def advance (s : Scanner) (c : Char) : Scanner :=
  if isBreak c then { s with line := s.line + 1, column := 0, index := s.index + 1 }
  else { s with column := s.column + 1, index := s.index + 1 }

/-- Reads the character `c` before `rest`. -/
def step? (s : Scanner) (c : Char) (rest : List Char) : Option Scanner :=
  let next? := match s.mode with
    | .between => s.fresh? c rest
    | .comment => if isBreak c then s.fresh? c rest else some s
    | .mark n => some { s with mode := if n = 1 then .between else .mark (n - 1) }
    | .plain reversed gap => s.inPlain? reversed gap c rest
    | .quoted double reversed gap state => s.inQuoted? double reversed gap state c rest
  next?.map (·.advance c)

/-- Takes all characters, as long as each can stand where it is. -/
def run? (s : Scanner) : List Char → Option Scanner
  | [] => some s
  | c :: rest => (s.step? c rest).bind fun s => run? s rest

/-- The tokens when the text ends. -/
def finish? (s : Scanner) : Option (List Token) := do
  let s ← match s.mode with
    | .plain reversed gap => some (s.endPlain reversed gap)
    | .quoted _ reversed _ .mark => some (s.endQuoted reversed)
    | .quoted .. => none
    | _ => some s
  let s ← s.dropStale?
  let s ← (s.unroll none).dropKey?
  return s.tokens.reverse

end Scanner

/-- The tokens of a text; a byte order mark in front of it does not count. -/
def tokens? (s : List Char) : Option (List Token) :=
  let s := Text.withoutStart ['\uFEFF'] s
  if s.all isAllowed then ((Scanner.run? {} (unifyLines s)).bind Scanner.finish?) else none

end InteropGraph.Yaml
