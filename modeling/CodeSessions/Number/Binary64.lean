/-!
# Binary64 — a double as a signed multiple of a power of two

A finite double is `± mantissa · 2 ^ exponent` with natural mantissa below `2 ^ 53`.  This module
takes doubles apart in that way, puts exact results together again, and computes on the parts the
two operations that need them: the remainder of a division, and the whole part's test.
-/

namespace CodeSessions

/-- The parts of a finite double: its sign, and its absolute value `mantissa * 2 ^ exponent`. -/
structure Binary64 where
  negative : Bool
  mantissa : Nat
  exponent : Int
  deriving DecidableEq, Repr

namespace Binary64

/-- The bit above the 52 stored bits of a mantissa, which only subnormal doubles lack. -/
def leadingBit : Nat := 0x10000000000000

/-- The highest of the 64 bits, which is set in negative doubles. -/
def signBit : Nat := 0x8000000000000000

/-- The least exponent, that of the subnormal doubles. -/
def minExponent : Int := -1074

/-- The parts of `x`, or `none` for an infinity or a NaN. -/
def ofFloat? (x : Float) : Option Binary64 :=
  let bits := x.toBits.toNat
  let negative := decide (signBit ≤ bits)
  let biased := bits / leadingBit % 2048
  let fraction := bits % leadingBit
  if biased = 2047 then none
  else if biased = 0 then some ⟨negative, fraction, minExponent⟩
  else some ⟨negative, leadingBit + fraction, (biased : Int) - 1075⟩

/-- The double with the given parts; exact when the mantissa is below `2 ^ 53` and the exponent is
at least `minExponent`. -/
def toFloat (x : Binary64) : Float :=
  let shift := min (52 - x.mantissa.log2) (x.exponent - minExponent).toNat
  let mantissa := x.mantissa <<< shift
  let exponent := x.exponent - shift
  let magnitude :=
    if mantissa < leadingBit then mantissa
    else (exponent + 1075).toNat * leadingBit + (mantissa - leadingBit)
  Float.ofBits (UInt64.ofNat (magnitude + if x.negative then signBit else 0))

/-- Whether the value is an integer. -/
def isWhole (x : Binary64) : Bool :=
  0 ≤ x.exponent || x.mantissa % (1 <<< (-x.exponent).toNat) == 0

/-- The absolute value with its fraction cut off. -/
def wholePart (x : Binary64) : Nat :=
  if 0 ≤ x.exponent then x.mantissa <<< x.exponent.toNat
  else x.mantissa >>> (-x.exponent).toNat

/-- The remainder of the division of `x` by `y` rounded toward zero, which has the sign of `x`. -/
def remainder (x y : Binary64) : Binary64 :=
  let exponent := min x.exponent y.exponent
  { negative := x.negative
    mantissa :=
      (x.mantissa <<< (x.exponent - exponent).toNat) %
        (y.mantissa <<< (y.exponent - exponent).toNat)
    exponent }

end Binary64

/-- The exact remainder of `x` by a `y` that is not zero, with the sign of `x`. -/
def truncatedRemainder (x y : Float) : Float :=
  match Binary64.ofFloat? x, Binary64.ofFloat? y with
  | some a, some b => (a.remainder b).toFloat
  | some _, none => if y.isNaN then y else x
  | none, _ => x - x

end CodeSessions
