import InteropGraph.Json.Reader

/-!
# The tokens of TOML text

Texts are quoted by one mark or by three, `"` with escapes and `'` without. Comments and blanks
separate tokens and are no tokens themselves; the end of a line is one.
-/

namespace InteropGraph.Toml

/-- What the lines of a file are made of. -/
inductive Token where
  /-- A word of letters, digits, `_` and `-`. -/
  | word (s : String)
  /-- A text between quotes; one between three quotes is no key. -/
  | quoted (s : String) (isKey : Bool)
  | openList
  | closeList
  | openTable
  | closeTable
  | equals
  | comma
  | dot
  | newline
deriving DecidableEq, Repr

/-- The characters of keys without quotes. -/
def isWordChar (c : Char) : Bool :=
  c.isAlphanum || c = '_' || c = '-'

/-- The white space within a line. -/
def isSpace (c : Char) : Bool :=
  c = ' ' || c = '\t'

/-- Control characters below the blank, other than the tab, stand nowhere in a line. -/
def isControl (c : Char) : Bool :=
  c.toNat < 0x20 && c ≠ '\t'

/-- The token that a single character is. -/
def punctuation? : Char → Option Token
  | '[' => some .openList
  | ']' => some .closeList
  | '{' => some .openTable
  | '}' => some .closeTable
  | '=' => some .equals
  | ',' => some .comma
  | '.' => some .dot
  | '\n' => some .newline
  | _ => none

/-! ### Quoted texts -/

/-- How a text is quoted. -/
structure Quotes where
  mark : Char
  triple : Bool
deriving DecidableEq, Repr

/-- Where the reader is inside a quoted text. -/
inductive QuoteState where
  | plain
  /-- Right after three opening marks, where the end of a line does not count. -/
  | first
  /-- After some marks that may close a text with three marks. -/
  | marks (count : Nat)
  | escape
  /-- Inside the number of a character, with the count of digits to come. -/
  | number (missing : Nat) (value : Nat)
  /-- After a backslash and blanks, which the end of the line has to follow. -/
  | joining
  /-- After an escaped end of line: blanks and further ends of lines do not count. -/
  | joined
deriving DecidableEq, Repr

/-- The character that a letter stands for after a backslash. -/
def escaped? : Char → Option Char
  | '"' => some '"'
  | '\\' => some '\\'
  | 'b' => some '\x08'
  | 'f' => some '\x0c'
  | 'n' => some '\n'
  | 'r' => some '\r'
  | 't' => some '\t'
  | _ => none

/-- One character inside a quoted text that does not end it: the next state, and the characters
that are complete. -/
def QuoteState.step? (q : Quotes) (c : Char) : QuoteState → Option (QuoteState × List Char)
  | .plain => content
  | .first => if c = '\n' then some (.plain, []) else content
  | .marks n =>
    if c = q.mark then some (.marks (n + 1), [])
    else content.map fun (state, out) => (state, List.replicate n q.mark ++ out)
  | .escape =>
    if c = 'u' then some (.number 4 0, [])
    else if c = 'U' then some (.number 8 0, [])
    else if q.triple ∧ c = '\n' then some (.joined, [])
    else if q.triple ∧ isSpace c then some (.joining, [])
    else (escaped? c).map fun e => (.plain, [e])
  | .number missing value =>
    match Json.hexDigit? c with
    | none => none
    | some d =>
      let value := 16 * value + d
      if 1 < missing then some (.number (missing - 1) value, [])
      else if value.isValidChar then some (.plain, [Char.ofNat value])
      else none
  | .joining =>
    if isSpace c then some (.joining, []) else if c = '\n' then some (.joined, []) else none
  | .joined => if isSpace c ∨ c = '\n' then some (.joined, []) else content
where
  /-- A character outside of escapes. -/
  content : Option (QuoteState × List Char) :=
    if c = q.mark then some (.marks 1, [])
    else if c = '\\' ∧ q.mark = '"' then some (.escape, [])
    else if c = '\n' ∧ q.triple then some (.plain, [c])
    else if isControl c ∨ c.toNat = 0x7F then none
    else some (.plain, [c])

/-! ### Whole texts -/

/-- Where the reader is between or inside tokens. -/
inductive ScanState where
  | between
  | comment
  | word (reversed : List Char)
  /-- After one mark that opens a text, or after two. -/
  | opening (mark : Char) (two : Bool)
  | quoted (q : Quotes) (reversed : List Char) (state : QuoteState)

/-- The tokens so far, in reverse, and what is open. -/
abbrev Scan := List Token × ScanState

/-- A character where no token is open. -/
def scanFresh? (tokens : List Token) (c : Char) : Option Scan :=
  if isSpace c then some (tokens, .between)
  else if c = '#' then some (tokens, .comment)
  else if c = '"' ∨ c = '\'' then some (tokens, .opening c false)
  else if isWordChar c then some (tokens, .word [c])
  else (punctuation? c).map fun t => (t :: tokens, .between)

/-- The word or text with these characters. -/
def wordToken (reversed : List Char) : Token :=
  .word (String.ofList reversed.reverse)

/-- A text between three marks, with the marks in front of the closing ones. -/
def tripleToken (q : Quotes) (reversed : List Char) (count : Nat) : Token :=
  .quoted (String.ofList (reversed.reverse ++ List.replicate (count - 3) q.mark)) false

/-- A character inside a quoted text. A text between three marks ends after the last of three to
five marks. -/
def scanQuoted? (tokens : List Token) (q : Quotes) (reversed : List Char) (state : QuoteState)
    (c : Char) : Option Scan :=
  match state, q.triple with
  | .marks n, true =>
    if 3 ≤ n ∧ (c ≠ q.mark ∨ n = 5) then scanFresh? (tripleToken q reversed n :: tokens) c
    else inside
  | .plain, false =>
    if c = q.mark then some (.quoted (String.ofList reversed.reverse) true :: tokens, .between)
    else inside
  | _, _ => inside
where
  inside : Option Scan :=
    (state.step? q c).map fun (state, out) => (tokens, .quoted q (out.reverse ++ reversed) state)

/-- Takes one character more, unless it cannot stand there. -/
def scanStep? (scan : Scan) (c : Char) : Option Scan :=
  let (tokens, state) := scan
  match state with
  | .between => scanFresh? tokens c
  | .comment =>
    if c = '\n' then some (.newline :: tokens, .between)
    else if isControl c then none
    else some (tokens, .comment)
  | .word w =>
    if isWordChar c then some (tokens, .word (c :: w)) else scanFresh? (wordToken w :: tokens) c
  | .opening mark false =>
    if c = mark then some (tokens, .opening mark true)
    else scanQuoted? tokens ⟨mark, false⟩ [] .plain c
  | .opening mark true =>
    if c = mark then some (tokens, .quoted ⟨mark, true⟩ [] .first)
    else scanFresh? (.quoted "" true :: tokens) c
  | .quoted q reversed state => scanQuoted? tokens q reversed state c

/-- The tokens, in reverse, when the text ends. -/
def Scan.finish? : Scan → Option (List Token)
  | (tokens, .between) | (tokens, .comment) => some tokens
  | (tokens, .word w) => some (wordToken w :: tokens)
  | (tokens, .opening _ true) => some (.quoted "" true :: tokens)
  | (tokens, .quoted q reversed (.marks n)) =>
    if 3 ≤ n then some (tripleToken q reversed n :: tokens) else none
  | _ => none

/-- A text with line feeds for its ends of lines. -/
def unifyLines : List Char → List Char
  | '\r' :: '\n' :: s => '\n' :: unifyLines s
  | c :: s => c :: unifyLines s
  | [] => []

/-- The tokens of a text; a byte order mark in front of it does not count. -/
def tokens? (s : List Char) : Option (List Token) := do
  let s := Text.withoutStart ['\uFEFF'] s
  let scan ← (unifyLines s).foldlM scanStep? ([], ScanState.between)
  let tokens ← Scan.finish? scan
  return tokens.reverse

end InteropGraph.Toml
