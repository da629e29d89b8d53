import InteropGraph.Yaml.Node
import InteropGraph.Number.Literal

/-!
# What plain scalars stand for

A plain scalar stands for null, a truth value or a number if it has the form of one, and otherwise
for its own text.
-/

namespace InteropGraph.Yaml

/-- The plain scalars that stand for nothing. -/
def isNull (s : String) : Bool :=
  s ∈ ["", "~", "null", "Null", "NULL"]

/-- The truth value that a plain scalar stands for. -/
def truth? (s : String) : Option Bool :=
  if s ∈ ["true", "True", "TRUE"] then some true
  else if s ∈ ["false", "False", "FALSE"] then some false
  else none

/-- `s` without a sign in front of it. -/
def unsignedPart : List Char → List Char
  | '+' :: s | '-' :: s => s
  | s => s

/-- Several digits that begin with a zero are no number. -/
def hasLeadingZero (s : List Char) : Bool :=
  let s := unsignedPart s
  1 < s.length && s.head? = some '0' && s.all Char.isDigit

/-- The value of a run of digits with the given base. -/
def radixValue? (base : Nat) (s : List Char) : Option Nat :=
  if s = [] then none
  else s.foldlM (fun n c => (Json.hexDigit? c).bind fun d =>
    if d < base then some (base * n + d) else none) 0

/-- A number with the base that its first characters give. -/
def magnitude? : List Char → Option Nat
  | '0' :: 'x' :: s => radixValue? 16 s
  | '0' :: 'o' :: s => radixValue? 8 s
  | '0' :: 'b' :: s => radixValue? 2 s
  | s => Text.digits? s

/-- The integer that a plain scalar stands for, with a sign in front or without. -/
def integer? (s : List Char) : Option Int :=
  if hasLeadingZero s then none
  else
    match s with
    | '-' :: s => (magnitude? s).map fun n => -(n : Int)
    | '+' :: s => (magnitude? s).map fun n => (n : Int)
    | s => (magnitude? s).map fun n => (n : Int)

/-- A number with a point or an exponent. One that is too large for a double is a text. -/
def float? (s : List Char) : Option Float :=
  if hasLeadingZero s then none
  else
    let literal? := match s with
      | '-' :: s => Number.Literal.ofUnsigned? false true s
      | '+' :: s => Number.Literal.ofUnsigned? false false s
      | s => Number.Literal.ofUnsigned? false false s
    literal?.bind fun l => if l.toFloatNearest.isFinite then some l.toFloatNearest else none

/-- The numbers that are not finite. -/
def special? (s : String) : Option Float :=
  if s ∈ [".inf", ".Inf", ".INF", "+.inf", "+.Inf", "+.INF"] then some (1 / 0)
  else if s ∈ ["-.inf", "-.Inf", "-.INF"] then some (-1 / 0)
  else if s ∈ [".nan", ".NaN", ".NAN"] then some (0 / 0)
  else none

/-- The value of a plain scalar. An integer has to fit in 64 bits; those of up to 128 bits are
refused. -/
def plainValue? (s : String) : Option Json :=
  if isNull s then some .null
  else
    match truth? s, integer? s.toList with
    | some b, _ => some (.bool b)
    | none, some i =>
      if -0x8000000000000000 ≤ i ∧ i < UInt64.size then some (.int i)
      else if -0x80000000000000000000000000000000 ≤ i ∧ i < 0x100000000000000000000000000000000 then
        none
      else some (number s)
    | none, none => some (number s)
where
  /-- A number that is no integer, or else the text. -/
  number (s : String) : Json :=
    match special? s, float? s.toList with
    | some x, _ | none, some x => .float x
    | none, none => .text s

/-- Whether a text has the form of another value, so that it has to be quoted. -/
def isAmbiguous (s : String) : Bool :=
  hasLeadingZero s.toList ||
    match plainValue? s with
    | some (.text _) => false
    | _ => true

/-! ### Documents as JSON -/

mutual

/-- The value that a node stands for. The keys of maps have to be texts. -/
def Node.toJson? : Node → Option Json
  | .scalar s true => plainValue? s
  | .scalar s false => some (.text s)
  | .list items => (itemsToJson? items).map .list
  | .map entries => (entriesToJson? entries).map .object

/-- The items of a list as JSON, if all of them are. -/
def itemsToJson? : List Node → Option (List Json)
  | [] => some []
  | n :: rest => do return (← n.toJson?) :: (← itemsToJson? rest)

/-- The entries of a map as JSON; their keys have to be texts. -/
def entriesToJson? : List (Node × Node) → Option (List (String × Json))
  | [] => some []
  | (k, n) :: rest => do
    let key ← (← k.toJson?).text?
    return (key, ← n.toJson?) :: (← entriesToJson? rest)

end

end InteropGraph.Yaml
