import InteropGraph.Text.Basic

/-!
# Number literals

The decimal literal `-12.50e3` has a sign, digits before and after the point, and an exponent.
`Literal.toFloatByScaling` and `Literal.toFloatNearest` are the two ways in which formats turn a
literal into a double.
-/

namespace InteropGraph.Number

/-- A decimal literal; `exponent` is missing if none is written. -/
structure Literal where
  negative : Bool
  whole : List Char
  fraction : Option (List Char)
  exponent : Option Int
deriving DecidableEq, Repr

namespace Literal

/-- Reads an exponent: `e` or `E`, an optional sign and digits. -/
def exponent? : List Char → Option (Option Int)
  | [] => some none
  | c :: s =>
    if c = 'e' ∨ c = 'E' then
      match s with
      | '-' :: s => (Text.digits? s).map fun n => some (-(n : Int))
      | '+' :: s => (Text.digits? s).map fun n => some (n : Int)
      | s => (Text.digits? s).map fun n => some (n : Int)
    else none

/-- Reads digits, an optional point with digits and an optional exponent. Where `strict` holds,
there are digits before the point and after it. -/
def ofUnsigned? (strict negative : Bool) (s : List Char) : Option Literal :=
  let whole := s.takeWhile Char.isDigit
  let fraction? : Option (List Char) × List Char :=
    match s.dropWhile Char.isDigit with
    | '.' :: t => (some (t.takeWhile Char.isDigit), t.dropWhile Char.isDigit)
    | t => (none, t)
  let (fraction, rest) := fraction?
  let wellFormed :=
    if strict then whole ≠ [] && fraction ≠ some []
    else whole ≠ [] || fraction.getD [] ≠ []
  if wellFormed then
    (exponent? rest).map fun exponent => { negative, whole, fraction, exponent }
  else none

/-- Whether a literal has neither a fraction nor an exponent. -/
def isInteger (l : Literal) : Bool :=
  l.fraction.isNone && l.exponent.isNone

/-- The value of a list of digits. -/
def valueOf (digits : List Char) : Nat :=
  digits.foldl (fun n c => 10 * n + (c.toNat - '0'.toNat)) 0

/-- The integer that a literal without fraction and exponent stands for. -/
def toInt (l : Literal) : Int :=
  if l.negative then -(valueOf l.whole : Int) else valueOf l.whole

/-- Takes digits as long as the number they make has 64 bits; also the digits that are left. -/
def leadingValue (n : Nat) : List Char → Nat × List Char
  | [] => (n, [])
  | c :: digits =>
    let next := 10 * n + (c.toNat - '0'.toNat)
    if next < UInt64.size then leadingValue next digits else (n, c :: digits)

/-- `x · 10^exponent` in double arithmetic, or nothing if it is too large. The powers of ten are
doubles up to `10^308`, so a smaller result takes more than one step; the fuel bounds them. -/
def scale? (x : Float) (exponent : Int) : Nat → Option Float
  | 0 => some 0
  | steps + 1 =>
    if 0 ≤ exponent then
      if exponent ≤ 308 then
        let y := x * Float.ofScientific 1 false exponent.toNat
        if y.isFinite then some y else none
      else if x == 0 then some x
      else none
    else if -308 ≤ exponent then some (x / Float.ofScientific 1 false (-exponent).toNat)
    else if x == 0 then some x
    else scale? (x / Float.ofScientific 1 false 308) (exponent + 308) steps

/-- The double that the first digits of the literal make, scaled by its exponent: one rounding for
the digits and one for each scaling. Nothing if the literal is too large. -/
def toFloatByScaling? (l : Literal) : Option Float :=
  let (n, dropped) := leadingValue 0 l.whole
  let (n, point) :=
    if dropped = [] then
      let digits := l.fraction.getD []
      let (n, unused) := leadingValue n digits
      (n, -((digits.length - unused.length : Nat) : Int))
    else (n, (dropped.length : Int))
  let size := scale? n.toUInt64.toFloat (point + l.exponent.getD 0) 20
  size.map fun x => if l.negative then -x else x

/-- The double nearest to the literal. No double has a point more than 400 places away from its
first digit. -/
def toFloatNearest (l : Literal) : Float :=
  let n := valueOf (l.whole ++ l.fraction.getD [])
  let exponent : Int := l.exponent.getD 0 - ((l.fraction.getD []).length : Int)
  let point : Int := exponent + (Nat.toDigits 10 n).length
  let size : Float :=
    if n = 0 ∨ point < -400 then 0
    else if 400 < point then 1 / 0
    else Float.ofScientific n (exponent < 0) exponent.natAbs
  if l.negative then -size else size

end Literal

end InteropGraph.Number
