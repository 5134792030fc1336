import CodeSessions.Script.Eval
import Mathlib.Data.String.Basic

/-!
# Operators — what the operators can come to

Whatever its operands are, an operator makes no text beyond the limit, and finds no fault with names
or with the reading of a source.

- `Value.Fits`: a value that is a text has at most `maxTextBytes`,
- `Admissible r`: `r` is a value that fits, or a fault of a kind that operators have,
- `admissible_applyBinary`, `admissible_applyUnary`.
-/

namespace CodeSessions

def Value.Fits (v : Value) : Prop :=
  ∀ s, v = .text s → s.utf8ByteSize ≤ Script.maxTextBytes

theorem Value.fits_of_kind {v : Value} (h : v.kind ≠ .text) : v.Fits := by
  rintro s rfl
  exact absurd rfl h

theorem Value.fits_text {s : String} (h : s.utf8ByteSize ≤ Script.maxTextBytes) :
    (Value.text s).Fits := by
  rintro t ht
  cases ht
  exact h

namespace Script

/-- Neither names nor the reading of a source are left to operators. -/
def FaultKind.ofOperator : FaultKind → Bool
  | name | syntactic => false
  | type | zeroDivision | overflow | memory => true

inductive Admissible : Except Fault Value → Prop
  | value {v : Value} : v.Fits → Admissible (.ok v)
  | fault {f : Fault} : f.kind.ofOperator = true → Admissible (.error f)

namespace Admissible

variable {r : Except Fault Value}

theorem fits (h : Admissible r) {v : Value} (hv : r = .ok v) : v.Fits := by
  subst hv
  cases h
  assumption

theorem ofOperator (h : Admissible r) {f : Fault} (hf : r = .error f) :
    f.kind.ofOperator = true := by
  subst hf
  cases h
  assumption

theorem of_kind {v : Value} (h : v.kind ≠ .text) : Admissible (.ok v) :=
  .value (Value.fits_of_kind h)

end Admissible

/-! ## Numbers -/

theorem admissible_intOrOverflow (r : Option Int64) : Admissible (intOrOverflow r) := by
  cases r with
  | none => exact .fault rfl
  | some n => exact .of_kind nofun

theorem admissible_integerOp (op : BinaryOp) (a b : Int64) : Admissible (integerOp op a b) := by
  unfold integerOp
  split
  · exact admissible_intOrOverflow _
  · exact admissible_intOrOverflow _
  · exact admissible_intOrOverflow _
  · split
    · exact .fault rfl
    · exact admissible_intOrOverflow _
  · split
    · exact .fault rfl
    · exact admissible_intOrOverflow _
  · exact .fault rfl

theorem admissible_floatOp (op : BinaryOp) (a b : Float) : Admissible (floatOp op a b) := by
  unfold floatOp
  split
  · exact .of_kind nofun
  · exact .of_kind nofun
  · exact .of_kind nofun
  · split
    · exact .fault rfl
    · exact .of_kind nofun
  · split
    · exact .fault rfl
    · exact .of_kind nofun
  · exact .fault rfl

theorem admissible_numericOp (op : BinaryOp) (left right : Value) :
    Admissible (numericOp op left right) := by
  unfold numericOp
  split
  · exact admissible_integerOp _ _ _
  · exact admissible_floatOp _ _ _
  · exact .fault rfl

/-! ## Texts -/

theorem admissible_joinTexts (a b : String) : Admissible (joinTexts a b) := by
  unfold joinTexts
  split
  · rename_i hle
    exact .value (Value.fits_text (by simpa using hle))
  · exact .fault rfl

theorem utf8ByteSize_replicate (s : String) (n : Nat) :
    (Text.replicate s n).utf8ByteSize = s.utf8ByteSize * n := by
  rw [← String.utf8Len_toList, Text.toList_replicate]
  induction n with
  | zero => simp
  | succ n ih =>
      have hhead := String.utf8Len_toList s
      simp [List.replicate_succ, String.utf8Len_append, ih, Nat.mul_succ, Nat.add_comm]

theorem admissible_repeatText (s : String) (count : Int64) : Admissible (repeatText s count) := by
  simp only [repeatText]
  split
  · rename_i hle
    exact .value (Value.fits_text (by simpa [utf8ByteSize_replicate] using hle))
  · exact .fault rfl

theorem admissible_arithmetic (op : BinaryOp) (left right : Value) :
    Admissible (arithmetic op left right) := by
  unfold arithmetic
  split
  · exact admissible_joinTexts _ _
  · split
    · exact admissible_repeatText _ _
    · exact admissible_numericOp _ _ _
  · split
    · exact admissible_repeatText _ _
    · exact admissible_numericOp _ _ _
  · exact admissible_numericOp _ _ _

/-! ## All operators -/

/-- The order of two values is asked for by comparisons only, which make truth values of it. -/
theorem admissible_order (op : BinaryOp) (left right : Value) (holds : Option Ordering → Bool) :
    Admissible ((order op left right).map fun o => .bool (holds o)) := by
  unfold order
  split
  · exact .of_kind nofun
  · split
    · exact .of_kind nofun
    · exact .of_kind nofun
    · exact .fault rfl

theorem admissible_applyBinary (op : BinaryOp) (left right : Value) :
    Admissible (applyBinary op left right) := by
  unfold applyBinary
  split
  · exact .of_kind nofun
  · exact .of_kind nofun
  · exact admissible_order _ _ _ _
  · exact admissible_order _ _ _ _
  · exact admissible_order _ _ _ _
  · exact admissible_order _ _ _ _
  · exact admissible_arithmetic _ _ _

theorem admissible_applyUnary (op : UnaryOp) (operand : Value) :
    Admissible (applyUnary op operand) := by
  unfold applyUnary
  split
  · exact .of_kind nofun
  · exact admissible_intOrOverflow _
  · exact .of_kind nofun
  · exact .of_kind nofun
  · exact .of_kind nofun
  · exact .fault rfl

end Script
end CodeSessions
