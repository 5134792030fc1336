import CodeSessions.Script.Arithmetic

/-!
# Evaluation of expressions

Operands are evaluated from left to right, and the first fault ends the evaluation.  `and` and `or`
give back one of their operands and leave the right one alone where the left one decides.  A chain
compares neighbours, evaluates each operand once, and stops at the first link that is false.
-/

namespace CodeSessions
namespace Script

mutual

def eval (env : Bindings) : Expr → Except Fault Value
  | .literal value => .ok value
  | .name name =>
      match env.get? name with
      | some value => .ok value
      | none => .error (.unbound name)
  | .unary op operand => do
      let operand ← eval env operand
      applyUnary op operand
  | .binary .and left right => do
      let left ← eval env left
      if left.isTruthy then eval env right else .ok left
  | .binary .or left right => do
      let left ← eval env left
      if left.isTruthy then .ok left else eval env right
  | .binary op left right => do
      let left ← eval env left
      let right ← eval env right
      applyBinary op left right
  | .chain first links => do
      let left ← eval env first
      evalLinks env left links

/-- The links of a chain, with `left` to the left of the first. -/
def evalLinks (env : Bindings) (left : Value) : List (BinaryOp × Expr) → Except Fault Value
  | [] => .ok (.bool true)
  | (op, right) :: links => do
      let right ← eval env right
      let holds ← applyBinary op left right
      if holds.isTruthy then evalLinks env right links else .ok (.bool false)

end

theorem eval_binary (env : Bindings) {op : BinaryOp} (hand : op ≠ .and) (hor : op ≠ .or)
    (left right : Expr) :
    eval env (.binary op left right) = (do
      let left ← eval env left
      let right ← eval env right
      applyBinary op left right) := by
  cases op with
  | and => exact absurd rfl hand
  | or => exact absurd rfl hor
  | _ => simp only [eval]

end Script
end CodeSessions
