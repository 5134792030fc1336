import CodeSessions.Number.Binary64

/-!
# Decimal — the text of a double

A finite double is written positionally.  If it is whole, all its digits are given and `.0` follows;
otherwise the fewest digits that read back as the same double, and of those the nearest to it, the
upper one if two are equally near.

- `Decimal.shortest` finds those digits by exact arithmetic on the parts of the double,
- `Decimal.text` writes a double out.
-/

namespace CodeSessions
namespace Decimal

/-- Digits and the power of ten that they are multiplied by. -/
structure Digits where
  digits : Nat
  exponent : Int
  deriving DecidableEq, Repr

/-- A value and the interval of the reals that round to it, as multiples of `num / den`. -/
structure Interval where
  low : Nat
  value : Nat
  high : Nat
  closed : Bool
  num : Nat
  den : Nat

/-- The reals that round to `x`, measured in quarters of its last place.  Below a power of two the
doubles lie half as far apart as above it.  A bound rounds to the even mantissa. -/
def Interval.ofBinary64 (x : Binary64) : Interval :=
  let narrow := x.mantissa = Binary64.leadingBit ∧ Binary64.minExponent < x.exponent
  let exponent := x.exponent - 2
  { low := 4 * x.mantissa - (if narrow then 1 else 2)
    value := 4 * x.mantissa
    high := 4 * x.mantissa + 2
    closed := x.mantissa % 2 == 0
    num := 1 <<< exponent.toNat
    den := 1 <<< (-exponent).toNat }

/-- The interval in units of `10 ^ exponent`. -/
def Interval.scale (i : Interval) (exponent : Int) : Interval :=
  { i with
    num := i.num * Nat.pow 10 (-exponent).toNat
    den := i.den * Nat.pow 10 exponent.toNat }

/-- Whether the whole number `n` lies in the interval. -/
def Interval.holds (i : Interval) (n : Nat) : Bool :=
  if i.closed then i.low * i.num ≤ n * i.den && n * i.den ≤ i.high * i.num
  else i.low * i.num < n * i.den && n * i.den < i.high * i.num

/-- The whole number in the interval that is nearest to its value. -/
def Interval.nearest? (i : Interval) : Option Nat :=
  let below := i.value * i.num / i.den
  let rest := i.value * i.num % i.den
  match i.holds below, i.holds (below + 1) with
  | true, true => some (if 2 * rest < i.den then below else below + 1)
  | true, false => some below
  | false, true => some (below + 1)
  | false, false => none

def digitCount (n : Nat) : Nat :=
  (Nat.toDigits 10 n).length

/-- The number of digits before the point, zero or negative for a value below one tenth. -/
def Interval.magnitude (i : Interval) : Int :=
  let num := i.value * i.num
  if i.den ≤ num then digitCount (num / i.den) else 1 - (digitCount ((i.den - 1) / num) : Int)

/-- Tries `places` digits, then more, `fuel` times in all. -/
def Interval.shortestFrom (i : Interval) (places : Nat) : (fuel : Nat) → Digits
  | 0 => ⟨0, 0⟩
  | fuel + 1 =>
      let exponent := i.magnitude - places
      match (i.scale exponent).nearest? with
      | some digits => ⟨digits, exponent⟩
      | none => i.shortestFrom (places + 1) fuel

/-- The fewest digits in the interval of a positive `x`: seventeen always suffice. -/
def shortest (x : Binary64) : Digits :=
  (Interval.ofBinary64 x).shortestFrom 1 17

/-- Drops the trailing zeros, at most `fuel` of them. -/
def Digits.strip (d : Digits) : (fuel : Nat) → Digits
  | 0 => d
  | fuel + 1 => if d.digits % 10 = 0 then strip ⟨d.digits / 10, d.exponent + 1⟩ fuel else d

/-- The digits with a point, for a value that is not whole. -/
def Digits.positional (d : Digits) : String :=
  let digits := Nat.toDigits 10 d.digits
  let places := (-d.exponent).toNat
  let padded := List.replicate (places + 1 - digits.length) '0' ++ digits
  let whole := padded.take (padded.length - places)
  let fraction := padded.drop (padded.length - places)
  String.ofList (whole ++ '.' :: fraction)

/-- The absolute value of a finite double. -/
def magnitudeText (x : Binary64) : String :=
  if x.isWhole then toString x.wholePart ++ ".0"
  else ((shortest x).strip 17).positional

def text (x : Float) : String :=
  match Binary64.ofFloat? x with
  | some parts => (if parts.negative then "-" else "") ++ magnitudeText parts
  | none => if x.isNaN then "NaN" else if x < 0 then "-inf" else "inf"

end Decimal
end CodeSessions
