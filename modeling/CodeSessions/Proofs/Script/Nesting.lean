import CodeSessions.Proofs.Script.Trees
import CodeSessions.Script.Eval

/-!
# Nesting — how many calls of the evaluator are open at once

A call of the evaluator calls it again for the operands that it needs.  To count the calls that are
open at once, one call is taken by itself:

- `evalCall env call`: one call, which leaves the calls that it makes in turn to `call`; the
  evaluator is what comes of it where those are calls of the evaluator (`evalCall_eval`),
- `evalWithin env room`: the evaluation where no more than `room` calls may be open at once,
- `evalWithin_of_path_le`: it comes to the result of the evaluator if no path of the expression is
  longer than that,
- `evaluation_nesting`: 513 calls are enough for whatever is read from a source.
-/

namespace CodeSessions
namespace Script

variable {env : Bindings}

/-! ## One call -/

section Call

variable {m : Type → Type} [Monad m] [MonadExceptOf Fault m]

/-- The links of a chain, with `left` to the left of the first. -/
def callLinks (call : Expr → m Value) (left : Value) : List (BinaryOp × Expr) → m Value
  | [] => pure (.bool true)
  | (op, right) :: links => do
      let right ← call right
      let holds ← MonadExcept.ofExcept (applyBinary op left right)
      if holds.isTruthy then callLinks call right links else pure (.bool false)

/-- One call of the evaluator, where `call` stands for the calls that it makes in turn. -/
def evalCall (env : Bindings) (call : Expr → m Value) : Expr → m Value
  | .literal value => pure value
  | .name name =>
      match env.get? name with
      | some value => pure value
      | none => throw (.unbound name)
  | .unary op operand => do
      let operand ← call operand
      MonadExcept.ofExcept (applyUnary op operand)
  | .binary .and left right => do
      let left ← call left
      if left.isTruthy then call right else pure left
  | .binary .or left right => do
      let left ← call left
      if left.isTruthy then pure left else call right
  | .binary op left right => do
      let left ← call left
      let right ← call right
      MonadExcept.ofExcept (applyBinary op left right)
  | .chain first links => do
      let left ← call first
      callLinks call left links

end Call

theorem ofExcept_eq (r : Except Fault Value) :
    (MonadExcept.ofExcept r : Except Fault Value) = r := by
  cases r <;> rfl

theorem callLinks_eval (left : Value) (links : List (BinaryOp × Expr)) :
    callLinks (eval env) left links = evalLinks env left links := by
  induction links generalizing left with
  | nil =>
      simp only [callLinks, evalLinks]
      rfl
  | cons link links ih =>
      simp only [callLinks, evalLinks, ofExcept_eq, ih]
      rfl

/-- The evaluator is what such calls come to that make calls of the same kind. -/
theorem evalCall_eval (e : Expr) : evalCall env (eval env) e = eval env e := by
  cases e with
  | literal value =>
      simp only [evalCall, eval]
      rfl
  | name name =>
      simp only [evalCall, eval]
      cases env.get? name <;> rfl
  | unary op operand => simp only [evalCall, eval, ofExcept_eq]
  | binary op left right => cases op <;> simp only [evalCall, eval, ofExcept_eq] <;> rfl
  | chain first links => simp only [evalCall, eval, callLinks_eval]

/-! ## Calls that are refused -/

/-- Evaluation where no more than `room` calls may be open at once.  There is no result if one more
is needed. -/
def evalWithin (env : Bindings) : (room : Nat) → Expr → ExceptT Fault Option Value
  | 0, _ => .mk none
  | room + 1, e => evalCall env (evalWithin env room) e

/-- No call is refused, and the result is `r`. -/
def Granted {α : Type} (x : ExceptT Fault Option α) (r : Except Fault α) : Prop :=
  x.run = some r

theorem Granted.bind {α β : Type} {x : ExceptT Fault Option α} {r : Except Fault α}
    {f : α → ExceptT Fault Option β} {g : α → Except Fault β} (hx : Granted x r)
    (hf : ∀ a, Granted (f a) (g a)) : Granted (x >>= f) (r >>= g) := by
  rw [Granted, ExceptT.run_bind, hx]
  cases r with
  | error fault => rfl
  | ok a => exact hf a

theorem granted_ofExcept (r : Except Fault Value) :
    Granted (MonadExcept.ofExcept r) (MonadExcept.ofExcept r) := by
  cases r <;> rfl

section Operands

variable {call : Expr → ExceptT Fault Option Value} {call' : Expr → Except Fault Value}

theorem granted_callLinks {links : List (BinaryOp × Expr)}
    (h : ∀ link ∈ links, Granted (call link.2) (call' link.2)) (left : Value) :
    Granted (callLinks call left links) (callLinks call' left links) := by
  induction links generalizing left with
  | nil => rfl
  | cons link links ih =>
      obtain ⟨hlink, hlinks⟩ := List.forall_mem_cons.1 h
      refine hlink.bind fun right => (granted_ofExcept _).bind fun holds => ?_
      split
      · exact ih hlinks right
      · rfl

/-- A call calls for nothing but operands. -/
theorem granted_evalCall {e : Expr} (h : ∀ e' ∈ e.operands, Granted (call e') (call' e')) :
    Granted (evalCall env call e) (evalCall env call' e) := by
  cases e with
  | literal value => rfl
  | name name =>
      simp only [evalCall]
      cases env.get? name <;> rfl
  | unary op operand =>
      have hoperand := h operand List.mem_cons_self
      exact hoperand.bind fun _ => granted_ofExcept _
  | binary op left right =>
      have hleft := h left List.mem_cons_self
      have hright := h right (List.mem_cons_of_mem left List.mem_cons_self)
      cases op with
      | and =>
          refine hleft.bind fun v => ?_
          split
          · exact hright
          · rfl
      | or =>
          refine hleft.bind fun v => ?_
          split
          · rfl
          · exact hright
      | _ => exact hleft.bind fun _ => hright.bind fun _ => granted_ofExcept _
  | chain first links =>
      have hfirst := h first List.mem_cons_self
      have hlinks : ∀ link ∈ links, Granted (call link.2) (call' link.2) :=
        fun link hmem => h link.2 (List.mem_cons_of_mem first (List.mem_map_of_mem hmem))
      exact hfirst.bind fun left => granted_callLinks hlinks left

end Operands

/-! ## Calls along a path -/

theorem exists_path : ∀ e : Expr, ∃ nodes, Path e nodes
  | .literal _ | .name _ => ⟨_, .leaf rfl⟩
  | .unary _ operand => by
      obtain ⟨nodes, h⟩ := exists_path operand
      exact ⟨_, .down List.mem_cons_self h⟩
  | .binary _ left _ => by
      obtain ⟨nodes, h⟩ := exists_path left
      exact ⟨_, .down List.mem_cons_self h⟩
  | .chain first _ => by
      obtain ⟨nodes, h⟩ := exists_path first
      exact ⟨_, .down List.mem_cons_self h⟩

/-- The calls that are open at once are for the expressions on a path, down from the root. -/
theorem evalWithin_of_path_le {room : Nat} {e : Expr}
    (h : ∀ nodes, Path e nodes → nodes.length ≤ room) :
    Granted (evalWithin env room e) (eval env e) := by
  induction room generalizing e with
  | zero =>
      obtain ⟨nodes, hpath⟩ := exists_path e
      have hnil : nodes = [] := List.length_eq_zero_iff.1 (Nat.le_zero.1 (h nodes hpath))
      subst hnil
      cases hpath
  | succ room ih =>
      have hoperands : ∀ e' ∈ e.operands, Granted (evalWithin env room e') (eval env e') := by
        intro e' hmem
        exact ih fun nodes hpath => Nat.le_of_succ_le_succ (h (e :: nodes) (.down hmem hpath))
      have hcall : Granted (evalWithin env (room + 1) e) (evalCall env (eval env) e) :=
        granted_evalCall hoperands
      rwa [evalCall_eval] at hcall

/-- In an expression of a program that is read, no path has more than 64 unary operators, and its
evaluation has no more than 513 calls open at once, whatever the environment.  The operators of one
line are 512 at most. -/
theorem evaluation_nesting {source : List Char} {p : Program}
    (hp : programOfSource source = .ok p) :
    (∀ l ∈ p, ∀ e ∈ l.statement.exprs,
      (∀ nodes, Path e nodes → nodes.countP Expr.isUnary ≤ 64) ∧
      ∀ env, (evalWithin env 513 e).run = some (eval env e)) ∧
    ∀ line, operatorsOn p line ≤ 512 := by
  obtain ⟨q, rfl, hq⟩ := programFrom_eq_ok_iff.1 hp
  refine ⟨fun l hl e he => ?_, hq.operatorsOn_le⟩
  obtain ⟨ts, depth, count, hderives, hdepth, hcount⟩ := hq.exists_derives hl he
  constructor
  · intro nodes hpath
    exact (hderives.path_le hpath).1.trans hdepth
  · intro env
    refine evalWithin_of_path_le fun nodes hpath => ?_
    exact (hderives.path_le hpath).2.trans (Nat.succ_le_succ hcount)

/-- A sum whose evaluation has four calls open at once, and a chain on the same line. -/
theorem evaluation_nesting_signed :
    let sum : Expr := .unary .negate (.binary .subtract
      (.binary .subtract (.literal (.int 1)) (.literal (.int 2))) (.literal (.int 3)))
    let chain : Expr := .chain (.literal (.int 1))
      [(.less, .literal (.int 2)), (.less, .literal (.int 3))]
    let p : Program := [⟨1, .print [sum, chain] true⟩]
    programOfSource "print -(1 - 2 - 3), 1 < 2 < 3".toList = .ok p ∧
    (∀ nodes, Path sum nodes → nodes.countP Expr.isUnary ≤ 64) ∧
    (evalWithin .empty 3 sum).run = none ∧ (evalWithin .empty 513 sum).run = some (.ok (.int 4)) ∧
    operatorsOn p 1 = 5 ∧ operatorsOn p 1 ≤ 512 := by
  intro sum chain p
  have hread : programOfSource "print -(1 - 2 - 3), 1 < 2 < 3".toList = .ok p := by
    have hlines : Text.lines "print -(1 - 2 - 3), 1 < 2 < 3".toList =
        ["print -(1 - 2 - 3), 1 < 2 < 3".toList] := by decide +kernel
    have htokens : Token.ofLine "print -(1 - 2 - 3), 1 < 2 < 3".toList =
        [.print, .op .subtract, .opening, .literal (.int 1), .op .subtract, .literal (.int 2),
          .op .subtract, .literal (.int 3), .closing, .comma, .literal (.int 1), .op .less,
          .literal (.int 2), .op .less, .literal (.int 3)] := by decide +kernel
    simp only [programOfSource, hlines, programFrom, readLine, htokens]
    rfl
  have hvalue : eval .empty sum = .ok (.int 4) := by
    simp only [sum, eval]
    rfl
  have hcount : operatorsOn p 1 = 5 := by
    simp [operatorsOn, p, Stmt.operatorCount, Stmt.exprs, sum, chain, Expr.operatorCount, linkCount]
  obtain ⟨hexprs, hlines⟩ := evaluation_nesting hread
  obtain ⟨hunary, hwithin⟩ := hexprs _ List.mem_cons_self sum List.mem_cons_self
  exact ⟨hread, hunary, rfl, hvalue ▸ hwithin .empty, hcount, hlines 1⟩

end Script
end CodeSessions
