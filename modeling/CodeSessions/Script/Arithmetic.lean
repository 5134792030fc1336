import CodeSessions.Script.Fault
import CodeSessions.Text.Replicate

/-!
# Arithmetic — the operators on values

What each operator yields on two evaluated operands, or the fault it raises.

- Booleans count as the integers 0 and 1.
- Integer results are exact, and one outside the 64-bit range is refused.
- An integer next to a float is rounded to the nearest float.
- Quotients of integers are rounded down, and a remainder has the sign of the divisor.  Both are
  made from the division of 64-bit integers, which rounds toward zero.
- Texts can be joined and repeated up to `maxTextBytes`.
-/

namespace CodeSessions
namespace Script

/-! ## Numbers -/

inductive Number
  | int (n : Int64)
  | float (x : Float)

namespace Number

def ofValue? : Value → Option Number
  | .bool b => some (int (if b then 1 else 0))
  | .int n => some (int n)
  | .float x => some (float x)
  | .none | .text _ => none

def toFloat : Number → Float
  | int n => n.toFloat
  | float x => x

end Number

/-! ## Integers -/

/-- `n` as a 64-bit integer, if it is one. -/
def fit? (n : Int) : Option Int64 :=
  if Int64.minValue.toInt ≤ n ∧ n ≤ Int64.maxValue.toInt then some (Int64.ofInt n) else none

/-- Whether the quotient rounded toward zero exists and has 64 bits. -/
def hasQuotient (a b : Int64) : Bool :=
  -- only the least integer over minus one is too large
  b != 0 && !(a == Int64.minValue && b == -1)

/-- The quotient rounded toward zero. -/
def quotient? (a b : Int64) : Option Int64 :=
  if hasQuotient a b then some (a / b) else none

/-- The remainder with the sign of `a`.  It is refused together with its quotient. -/
def remainder? (a b : Int64) : Option Int64 :=
  if hasQuotient a b then some (a % b) else none

/-- Whether a quotient with remainder `r` was rounded up: the sign of `r` is not that of `b`. -/
def isRoundedUp (r b : Int64) : Bool :=
  r != 0 && decide (r < 0) != decide (b < 0)

/-- The quotient rounded down. -/
def floorQuotient? (a b : Int64) : Option Int64 := do
  let q ← quotient? a b
  let r ← remainder? a b
  if isRoundedUp r b then fit? (q.toInt - 1) else some q

/-- The remainder with the sign of the divisor `b`. -/
def floorRemainder? (a b : Int64) : Option Int64 := do
  let r ← remainder? a b
  if isRoundedUp r b then fit? (r.toInt + b.toInt) else some r

def intOrOverflow : Option Int64 → Except Fault Value
  | some n => .ok (.int n)
  | none => .error .overflow

def exactInt (n : Int) : Except Fault Value :=
  intOrOverflow (fit? n)

def integerOp (op : BinaryOp) (a b : Int64) : Except Fault Value :=
  match op with
  | .add => exactInt (a.toInt + b.toInt)
  | .subtract => exactInt (a.toInt - b.toInt)
  | .multiply => exactInt (a.toInt * b.toInt)
  | .divide => if b = 0 then .error .zeroDivisor else intOrOverflow (floorQuotient? a b)
  | .modulo => if b = 0 then .error .zeroDivisor else intOrOverflow (floorRemainder? a b)
  | op => .error (.unsupported op .int .int)

/-! ## Floats -/

/-- The remainder with the sign of the divisor `b`. -/
def floatModulo (a b : Float) : Float :=
  let r := truncatedRemainder a b
  if !(r == 0) && decide (r < 0) != decide (b < 0) then r + b else r

def floatOp (op : BinaryOp) (a b : Float) : Except Fault Value :=
  match op with
  | .add => .ok (.float (a + b))
  | .subtract => .ok (.float (a - b))
  | .multiply => .ok (.float (a * b))
  | .divide => if b == 0 then .error .zeroFloatDivisor else .ok (.float (a / b))
  | .modulo => if b == 0 then .error .zeroFloatModulus else .ok (.float (floatModulo a b))
  | op => .error (.unsupported op .float .float)

/-! ## Texts -/

def joinTexts (a b : String) : Except Fault Value :=
  if a.utf8ByteSize + b.utf8ByteSize ≤ maxTextBytes then .ok (.text (a ++ b))
  else .error .textTooLong

/-- A negative count gives the empty text. -/
def repeatText (s : String) (count : Int64) : Except Fault Value :=
  let times := count.toInt.toNat
  if s.utf8ByteSize * times ≤ maxTextBytes then .ok (.text (Text.replicate s times))
  else .error .textTooLong

/-! ## Arithmetic operators -/

def numericOp (op : BinaryOp) (left right : Value) : Except Fault Value :=
  match Number.ofValue? left, Number.ofValue? right with
  | some (.int a), some (.int b) => integerOp op a b
  | some a, some b => floatOp op a.toFloat b.toFloat
  | _, _ => .error (.unsupported op left.kind right.kind)

def arithmetic (op : BinaryOp) (left right : Value) : Except Fault Value :=
  match op, left, right with
  | .add, .text a, .text b => joinTexts a b
  | .multiply, .text s, count =>
      match Number.ofValue? count with
      | some (.int n) => repeatText s n
      | _ => numericOp .multiply left right
  -- a text may stand on either side of the count
  | .multiply, count, .text s =>
      match Number.ofValue? count with
      | some (.int n) => repeatText s n
      | _ => numericOp .multiply left right
  | op, left, right => numericOp op left right

/-! ## Comparisons -/

/-- Numbers are compared by value, everything else by kind and content. -/
def valuesEqual (left right : Value) : Bool :=
  match Number.ofValue? left, Number.ofValue? right with
  | some (.int a), some (.int b) => a == b
  | some a, some b => a.toFloat == b.toFloat
  | _, _ => left.same right

/-- A NaN has no order to any float. -/
def floatOrder (a b : Float) : Option Ordering :=
  if a < b then some .lt else if a == b then some .eq else if b < a then some .gt else none

/-- The order of two values: `none` if they are numbers without one.  Texts are ordered by their
code points. -/
def order (op : BinaryOp) (left right : Value) : Except Fault (Option Ordering) :=
  match left, right with
  | .text a, .text b => .ok (some (compareOfLessAndEq a b))
  | left, right =>
      match Number.ofValue? left, Number.ofValue? right with
      | some (.int a), some (.int b) => .ok (some (compare a.toInt b.toInt))
      | some a, some b => .ok (floatOrder a.toFloat b.toFloat)
      | _, _ => .error (.unorderable op left.kind right.kind)

/-! ## All operators -/

def applyBinary (op : BinaryOp) (left right : Value) : Except Fault Value :=
  match op with
  | .equal => .ok (.bool (valuesEqual left right))
  | .notEqual => .ok (.bool (!valuesEqual left right))
  | .less => (order op left right).map fun o => .bool (o == some .lt)
  | .greater => (order op left right).map fun o => .bool (o == some .gt)
  | .lessEqual => (order op left right).map fun o => .bool (o == some .lt || o == some .eq)
  | .greaterEqual => (order op left right).map fun o => .bool (o == some .gt || o == some .eq)
  | op => arithmetic op left right

def applyUnary (op : UnaryOp) (operand : Value) : Except Fault Value :=
  match op, Number.ofValue? operand with
  | .not, _ => .ok (.bool (!operand.isTruthy))
  | .negate, some (.int n) => exactInt (-n.toInt)
  | .negate, some (.float x) => .ok (.float (-x))
  | .plus, some (.int n) => .ok (.int n)
  | .plus, some (.float x) => .ok (.float x)
  | op, none => .error (.badOperand op operand.kind)

end Script
end CodeSessions
