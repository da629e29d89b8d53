/-!
# The shortest decimal of a double

A finite double is `m · 2^q`. Every real number in an interval around it reads back as the same
double; `shortest` finds the decimal in that interval that has the fewest digits, and of those the
nearest to the double. All arithmetic is exact.
-/

namespace InteropGraph.Number

/-- The number 10ⁿ. -/
def powerOfTen (n : Nat) : Nat := Nat.pow 10 n

/-- The decimal `digits · 10^exponent`. -/
structure Decimal where
  digits : Nat
  exponent : Int
deriving DecidableEq, Repr

/-- The interval of numbers that read back as one double: its value, its lower and its upper end
as multiples of `1 / unit`, and whether the ends belong to it. -/
structure Interval where
  low : Nat
  value : Nat
  high : Nat
  unit : Nat
  closed : Bool
deriving Repr

/-- The interval around the positive finite double with these bits. Below a power of two the
doubles lie twice as dense. -/
def intervalOfBits (bits : Nat) : Interval :=
  let fraction := bits % (1 <<< 52)
  let biased := (bits >>> 52) % 2048
  let m := if biased = 0 then fraction else fraction + (1 <<< 52)
  let shift := if biased = 0 then 1 else biased
  let below := if fraction = 0 ∧ 1 < biased then 1 else 2
  let closed := m % 2 == 0
  -- the double is `4 * m * 2 ^ (shift - 1077)`
  if 1077 ≤ shift then
    let scale := 1 <<< (shift - 1077)
    ⟨(4 * m - below) * scale, 4 * m * scale, (4 * m + 2) * scale, 1, closed⟩
  else ⟨4 * m - below, 4 * m, 4 * m + 2, 1 <<< (1077 - shift), closed⟩

/-- Whether `a / b` lies in the interval. -/
def Interval.contains (i : Interval) (a b : Nat) : Bool :=
  if i.closed then i.low * b ≤ a * i.unit && a * i.unit ≤ i.high * b
  else i.low * b < a * i.unit && a * i.unit < i.high * b

/-- The numerator and the denominator of `digits · 10^exponent`. -/
def Decimal.ratio (d : Decimal) : Nat × Nat :=
  match d.exponent with
  | .ofNat e => (d.digits * powerOfTen e, 1)
  | .negSucc e => (d.digits, powerOfTen (e + 1))

/-- The `e` with `10^(e - 1) ≤ value < 10^e`. -/
def Interval.magnitude (i : Interval) : Int :=
  if i.unit ≤ i.value then (Nat.toDigits 10 (i.value / i.unit)).length
  else
    match (List.range 400).find? fun j => i.unit ≤ i.value * powerOfTen j with
    | some j => 1 - (j : Int)
    | none => 0

/-- The decimal with the exponent `e` that is nearest to the value among its two neighbours in the
interval; a tie goes to the even one. -/
def Interval.onGrid? (i : Interval) (e : Int) : Option Decimal :=
  let (a, b) := match e with
    | .ofNat n => (i.value, i.unit * powerOfTen n)
    | .negSucc n => (i.value * powerOfTen (n + 1), i.unit)
  let below : Decimal := ⟨a / b, e⟩
  let above : Decimal := ⟨a / b + 1, e⟩
  let hits (d : Decimal) : Bool := i.contains d.ratio.1 d.ratio.2
  let rest := 2 * (a % b)
  match hits below, hits above with
  | true, true =>
    some (if rest < b ∨ (rest = b ∧ below.digits % 2 = 0) then below else above)
  | true, false => some below
  | false, true => some above
  | false, false => none

/-- The decimal without zeros at its end; the fuel bounds their number. -/
def Decimal.trimZeros : Nat → Decimal → Decimal
  | 0, d => d
  | n + 1, d =>
    if d.digits % 10 = 0 ∧ d.digits ≠ 0 then trimZeros n ⟨d.digits / 10, d.exponent + 1⟩ else d

/-- The shortest decimal that reads back as the positive finite double with these bits. Seventeen
digits always do. -/
def shortest (bits : Nat) : Decimal :=
  let i := intervalOfBits bits
  let grids := (List.range 17).map fun n => i.magnitude - (n + 1 : Nat)
  ((grids.findSome? i.onGrid?).getD ⟨0, 0⟩).trimZeros 20

/-- How a format writes doubles: from `10^least` up to below `10^bound` in positional notation, with
at least one digit after the point, and otherwise with an exponent. -/
structure FloatStyle where
  least : Int
  bound : Int
  plusSign : Bool
  infinity : String
  negativeInfinity : String
  nan : String

/-- A row of zeros. -/
def zeros (n : Nat) : String :=
  String.ofList (List.replicate n '0')

/-- Writes a positive decimal without zeros at its end. -/
def FloatStyle.writeDecimal (style : FloatStyle) (d : Decimal) : String :=
  let digits := Nat.toDigits 10 d.digits
  -- the decimal is `0.digits · 10^point`
  let point : Int := digits.length + d.exponent
  if style.least < point ∧ point ≤ style.bound then
    if point ≤ 0 then "0." ++ zeros (-point).toNat ++ String.ofList digits
    else if 0 ≤ d.exponent then String.ofList digits ++ zeros d.exponent.toNat ++ ".0"
    else
      String.ofList (digits.take point.toNat) ++ "." ++ String.ofList (digits.drop point.toNat)
  else
    let exponent := point - 1
    let fraction := if digits.length = 1 then "" else "." ++ String.ofList (digits.drop 1)
    let sign := if exponent < 0 then "-" else if style.plusSign then "+" else ""
    String.ofList (digits.take 1) ++ fraction ++ "e" ++ sign ++ toString exponent.natAbs

/-- Writes a double with the fewest digits that read back as it. -/
def FloatStyle.write (style : FloatStyle) (x : Float) : String :=
  let bits := x.toBits.toNat
  let negative := 1 <<< 63 ≤ bits
  let size := bits % (1 <<< 63)
  if 2047 <<< 52 < size then style.nan
  else if size = 2047 <<< 52 then (if negative then style.negativeInfinity else style.infinity)
  else
    (if negative then "-" else "") ++
      (if size = 0 then "0.0" else style.writeDecimal (shortest size))

end InteropGraph.Number
