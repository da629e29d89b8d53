import InteropGraph.Source.Basic

/-!
# Integer constants

`BitConstant.value` reads a bit pattern as an integer: in two's complement of its width if the
constant is signed, and as a 64-bit word otherwise.
-/

namespace InteropGraph

/-- An integer, with a sign where the constant needs one. -/
inductive IntegerValue where
  | signed (value : Int64)
  | unsigned (value : UInt64)
deriving DecidableEq, Repr

/-- The number, whichever way it is kept. -/
def IntegerValue.toInt : IntegerValue → Int
  | signed v => v.toInt
  | unsigned v => v.toNat

namespace BitConstant

/-- The width in bits that counts, from 1 to 64. -/
def effectiveWidth (c : BitConstant) : UInt64 :=
  let w := c.width.toUInt64
  if w < 1 then 1 else if 64 < w then 64 else w

/-- The word with ones in the places of the constant's width. -/
def mask (c : BitConstant) : UInt64 :=
  if c.effectiveWidth = 64 then 0xFFFFFFFFFFFFFFFF else (1 <<< c.effectiveWidth) - 1

/-- The bits of the constant's width. -/
def maskedBits (c : BitConstant) : UInt64 :=
  c.bits &&& c.mask

/-- The word with a one in the highest place of the constant's width. -/
def signBit (c : BitConstant) : UInt64 :=
  1 <<< (c.effectiveWidth - 1)

/-- The integer that the constant stands for. A signed constant whose highest bit is set is
negative; so is every word whose highest bit is set. -/
def value (c : BitConstant) : IntegerValue :=
  if !c.unsigned && c.maskedBits &&& c.signBit != 0 then
    .signed (c.maskedBits ||| ~~~c.mask).toInt64
  else if c.maskedBits >>> 63 != 0 then .signed c.maskedBits.toInt64
  else .unsigned c.maskedBits

end BitConstant

end InteropGraph
