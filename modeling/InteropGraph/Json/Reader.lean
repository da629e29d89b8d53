import InteropGraph.Json.Basic
import InteropGraph.Number.Literal

/-!
# Reading JSON text

`Json.parse?` reads a text as one value. The text is cut into tokens first, and the tokens are put
together by a machine whose stack holds the lists and objects that are still open; at most 127 of
them may be open at a time.
-/

namespace InteropGraph.Json

/-- A piece of JSON text. -/
inductive Token where
  | openList
  | closeList
  | openObject
  | closeObject
  | comma
  | colon
  | scalar (value : Json)

/-! ### Tokens -/

/-- The value of a hexadecimal digit. -/
def hexDigit? (c : Char) : Option Nat :=
  if c.isDigit then some (c.toNat - '0'.toNat)
  else if 'a' ≤ c ∧ c ≤ 'f' then some (c.toNat - 'a'.toNat + 10)
  else if 'A' ≤ c ∧ c ≤ 'F' then some (c.toNat - 'A'.toNat + 10)
  else none

/-- The value of four hexadecimal digits. -/
def hexUnit? (a b c d : Char) : Option Nat := do
  return ((← hexDigit? a) * 16 + (← hexDigit? b)) * 256 + ((← hexDigit? c) * 16 + (← hexDigit? d))

/-- The character that stands for itself or for a control character after a backslash. -/
def escaped? : Char → Option Char
  | '"' => some '"'
  | '\\' => some '\\'
  | '/' => some '/'
  | 'b' => some '\x08'
  | 'f' => some '\x0c'
  | 'n' => some '\n'
  | 'r' => some '\r'
  | 't' => some '\t'
  | _ => none

/-- Where the reader is inside a quoted text. -/
inductive QuoteState where
  | plain
  | escape
  /-- Inside `\uXXXX`, with the digits so far and the high surrogate before it, if there is one. -/
  | unit (digits : List Char) (high : Option Nat)
  /-- After a high surrogate, which a second escape has to follow. -/
  | surrogate (high : Nat)
  | surrogateEscape (high : Nat)

/-- What a complete unit means after `high`: the next state, and the character that is complete. -/
def unitMeaning? (unit : Nat) : Option Nat → Option (QuoteState × Option Char)
  | none =>
    if 0xD800 ≤ unit ∧ unit < 0xDC00 then some (.surrogate unit, none)
    else if 0xDC00 ≤ unit ∧ unit < 0xE000 then none
    else some (.plain, some (Char.ofNat unit))
  | some high =>
    if 0xDC00 ≤ unit ∧ unit < 0xE000 then
      some (.plain, some (Char.ofNat ((high - 0xD800) * 0x400 + (unit - 0xDC00) + 0x10000)))
    else none

/-- One character inside a quoted text: the next state and the character that it completes. -/
def QuoteState.step? (c : Char) : QuoteState → Option (QuoteState × Option Char)
  | .plain =>
    if c = '\\' then some (.escape, none)
    else if c.toNat < 0x20 then none
    else some (.plain, some c)
  | .escape =>
    if c = 'u' then some (.unit [] none, none)
    else (escaped? c).map fun e => (.plain, some e)
  | .unit [x, y, z] high => (hexUnit? x y z c).bind (unitMeaning? · high)
  | .unit digits high => some (.unit (digits ++ [c]) high, none)
  | .surrogate high => if c = '\\' then some (.surrogateEscape high, none) else none
  | .surrogateEscape high => if c = 'u' then some (.unit [] (some high), none) else none

/-- The value of a word that is not quoted: a name of a constant, or a number. An integer that does
not fit in 64 bits, and a zero with a minus sign, are doubles. -/
def word? (s : List Char) : Option Json :=
  if s = "null".toList then some .null
  else if s = "true".toList then some (.bool true)
  else if s = "false".toList then some (.bool false)
  else
    let literal? := match s with
      | '-' :: s => Number.Literal.ofUnsigned? true true s
      | s => Number.Literal.ofUnsigned? true false s
    match literal? with
    | none => none
    | some l =>
      if 1 < l.whole.length ∧ l.whole.head? = some '0' then none
      else
        let i := l.toInt
        let fits := if l.negative then -0x8000000000000000 ≤ i && i < 0 else i < UInt64.size
        if l.isInteger && fits then some (.int i) else l.toFloatByScaling?.map .float

/-- Where the reader is between or inside tokens. -/
inductive ScanState where
  | between
  | word (reversed : List Char)
  | quoted (reversed : List Char) (state : QuoteState)

/-- The white space of JSON. -/
def isSpace (c : Char) : Bool :=
  c = ' ' || c = '\t' || c = '\n' || c = '\r'

/-- The token that a single character is. -/
def punctuation? : Char → Option Token
  | '[' => some .openList
  | ']' => some .closeList
  | '{' => some .openObject
  | '}' => some .closeObject
  | ',' => some .comma
  | ':' => some .colon
  | _ => none

/-- One character outside of quotes, where no word is open. -/
def scanFresh (tokens : List Token) (c : Char) : List Token × ScanState :=
  if isSpace c then (tokens, .between)
  else
    match punctuation? c with
    | some t => (t :: tokens, .between)
    | none => if c = '"' then (tokens, .quoted [] .plain) else (tokens, .word [c])

/-- The tokens of a text, in reverse, after those in `tokens`. -/
def scan? (tokens : List Token) : ScanState → List Char → Option (List Token)
  | .between, [] => some tokens
  | .word w, [] => (word? w.reverse).map fun j => .scalar j :: tokens
  | .quoted _ _, [] => none
  | .between, c :: s =>
    let (tokens, state) := scanFresh tokens c
    scan? tokens state s
  | .word w, c :: s =>
    if isSpace c || (punctuation? c).isSome || c = '"' then
      match word? w.reverse with
      | none => none
      | some j =>
        let (tokens, state) := scanFresh (.scalar j :: tokens) c
        scan? tokens state s
    else scan? tokens (.word (c :: w)) s
  | .quoted reversed state, c :: s =>
    match state, c with
    | .plain, '"' => scan? (.scalar (.text (String.ofList reversed.reverse)) :: tokens) .between s
    | _, _ =>
      match state.step? c with
      | none => none
      | some (state, none) => scan? tokens (.quoted reversed state) s
      | some (state, some x) => scan? tokens (.quoted (x :: reversed) state) s

/-- The tokens of a text. -/
def tokens? (s : List Char) : Option (List Token) :=
  (scan? [] .between s).map List.reverse

/-! ### Values -/

/-- A list or an object that is still open, with its parts so far in reverse. -/
inductive Frame where
  | list (done : List Json)
  | object (done : List (String × Json)) (key : String)

/-- What may come next. -/
inductive Expect where
  /-- A value. -/
  | value
  /-- The first value of a list, or its end. -/
  | firstItem
  /-- The first key of an object, or its end. -/
  | firstKey (done : List (String × Json))
  | key (done : List (String × Json))
  | colon (done : List (String × Json)) (key : String)
  /-- A separator or the end of what is open, after a value in it. -/
  | afterValue (value : Json)

/-- Closes the innermost frame around its last value. -/
def Frame.close : Frame → Json → Json
  | .list done, j => .list (j :: done).reverse
  | .object done key, j => .object ((key, j) :: done).reverse

/-- How many lists and objects may be open at a time. -/
def maxDepth : Nat := 127

/-- Reads tokens into one value; `stack` holds what is open. For an object whose next key is to be
read, the frame is kept in the expectation. -/
def assemble? (stack : List Frame) (depth : Nat) : Expect → List Token → Option Json
  | .afterValue j, [] => if stack.isEmpty then some j else none
  | _, [] => none
  | .value, t :: ts => opening stack depth t ts
  | .firstItem, .closeList :: ts =>
    match stack with
    | .list _ :: stack => assemble? stack (depth - 1) (.afterValue (.list [])) ts
    | _ => none
  | .firstItem, t :: ts => opening stack depth t ts
  | .firstKey _, .closeObject :: ts => assemble? stack (depth - 1) (.afterValue (.object [])) ts
  | .firstKey done, .scalar (.text k) :: ts => assemble? stack depth (.colon done k) ts
  | .key done, .scalar (.text k) :: ts => assemble? stack depth (.colon done k) ts
  | .colon done k, .colon :: ts => assemble? (.object done k :: stack) depth .value ts
  | .afterValue j, .comma :: ts =>
    match stack with
    | .list done :: stack => assemble? (.list (j :: done) :: stack) depth .value ts
    | .object done k :: stack => assemble? stack depth (.key ((k, j) :: done)) ts
    | [] => none
  | .afterValue j, .closeList :: ts =>
    match stack with
    | .list done :: stack =>
      assemble? stack (depth - 1) (.afterValue ((Frame.list done).close j)) ts
    | _ => none
  | .afterValue j, .closeObject :: ts =>
    match stack with
    | .object done k :: stack =>
      assemble? stack (depth - 1) (.afterValue ((Frame.object done k).close j)) ts
    | _ => none
  | _, _ :: _ => none
where
  /-- Reads a value that begins with the token `t`. -/
  opening (stack : List Frame) (depth : Nat) (t : Token) (ts : List Token) : Option Json :=
    match t with
    | .scalar j => assemble? stack depth (.afterValue j) ts
    | .openList =>
      if depth < maxDepth then assemble? (.list [] :: stack) (depth + 1) .firstItem ts else none
    | .openObject =>
      if depth < maxDepth then assemble? stack (depth + 1) (.firstKey []) ts else none
    | _ => none

/-- Reads a text as one JSON value. -/
def parse? (s : String) : Option Json :=
  (tokens? s.toList).bind (assemble? [] 0 .value)

end InteropGraph.Json
