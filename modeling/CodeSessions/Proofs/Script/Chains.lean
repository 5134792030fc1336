import CodeSessions.Proofs.Script.Reading
import CodeSessions.Script.Eval

/-!
# Chains — a chained comparison is the conjunction of its links

A chain evaluates each operand once.  The conjunction of its links evaluates the operands between
two links twice, and comes to the same result, or to the same fault.

- `Expr.comparisons first links`: the links of a chain as comparisons of neighbours,
- `Conjunction e parts`: `e` joins the parts by `and`, under any bracketing,
- `evalAll env parts`: the parts in order, up to the first that is not true, to which a conjunction
  (`Conjunction.eval_eq`) and a chain (`eval_chain`) both come down,
- `chain_is_conjunction`.
-/

namespace CodeSessions
namespace Script

variable {env : Bindings}

/-! ## Comparisons -/

/-- The comparisons of neighbours in a chain. -/
def Expr.comparisons (first : Expr) : List (BinaryOp × Expr) → List Expr
  | [] => []
  | (op, right) :: links => .binary op first right :: comparisons right links

theorem map_bool_eq_ok {α : Type} {r : Except Fault α} {f : α → Bool} {v : Value}
    (h : (r.map fun a => Value.bool (f a)) = .ok v) : ∃ b, v = .bool b := by
  obtain ⟨a, -, rfl⟩ := ok_of_map_eq_ok h
  exact ⟨f a, rfl⟩

theorem exists_bool_of_applyBinary {op : BinaryOp} (hop : op.isComparison = true)
    {left right v : Value} (h : applyBinary op left right = .ok v) : ∃ b, v = .bool b := by
  cases op with
  | equal | notEqual =>
      cases h
      exact ⟨_, rfl⟩
  | less | greater | lessEqual | greaterEqual => exact map_bool_eq_ok h
  | _ => cases hop

theorem eval_comparison {op : BinaryOp} (hop : op.isComparison = true) (left right : Expr) :
    eval env (.binary op left right) = (do
      let left ← eval env left
      let right ← eval env right
      applyBinary op left right) :=
  eval_binary env (by rintro rfl; cases hop) (by rintro rfl; cases hop) left right

theorem of_eval_comparison {op : BinaryOp} (hop : op.isComparison = true) {left right : Expr}
    {v : Value} (h : eval env (.binary op left right) = .ok v) :
    ∃ a b, eval env left = .ok a ∧ eval env right = .ok b ∧ applyBinary op a b = .ok v := by
  rw [eval_comparison hop] at h
  obtain ⟨a, ha, h⟩ := ok_of_bind_eq_ok h
  obtain ⟨b, hb, h⟩ := ok_of_bind_eq_ok h
  exact ⟨a, b, ha, hb, h⟩

/-! ## Conjunctions -/

inductive Conjunction : Expr → List Expr → Prop
  | part (e : Expr) : Conjunction e [e]
  | and {left right : Expr} {lefts rights : List Expr} :
      Conjunction left lefts → Conjunction right rights →
      Conjunction (.binary .and left right) (lefts ++ rights)

theorem Conjunction.ne_nil {e : Expr} {parts : List Expr} (h : Conjunction e parts) :
    parts ≠ [] := by
  induction h with
  | part e => nofun
  | and _ _ ih _ => simp [ih]

/-- As a line without parentheses is read. -/
theorem Conjunction.foldLeft {e : Expr} {parts : List Expr} (h : Conjunction e parts)
    (rest : List Expr) :
    Conjunction (e.foldLeft (rest.map fun part => (.and, part))) (parts ++ rest) := by
  induction rest generalizing e parts with
  | nil => simpa [Expr.foldLeft] using h
  | cons part rest ih => simpa [Expr.foldLeft] using ih (h.and (.part part))

/-- The parts one by one.  The first that is not true decides, and else the last one does. -/
def evalAll (env : Bindings) : List Expr → Except Fault Value
  | [] => .ok (.bool true)
  | [e] => eval env e
  | e :: next :: rest => do
      let v ← eval env e
      if v.isTruthy then evalAll env (next :: rest) else .ok v

theorem evalAll_cons (e : Expr) {rest : List Expr} (hrest : rest ≠ []) :
    evalAll env (e :: rest) = (do
      let v ← eval env e
      if v.isTruthy then evalAll env rest else .ok v) := by
  cases rest with
  | nil => exact absurd rfl hrest
  | cons next rest => rfl

theorem evalAll_append {lefts rights : List Expr} (hlefts : lefts ≠ []) (hrights : rights ≠ []) :
    evalAll env (lefts ++ rights) = (do
      let v ← evalAll env lefts
      if v.isTruthy then evalAll env rights else .ok v) := by
  induction lefts with
  | nil => exact absurd rfl hlefts
  | cons e rest ih =>
      by_cases hrest : rest = []
      · subst hrest
        exact evalAll_cons e hrights
      · have happend : rest ++ rights ≠ [] := by simp [hrest]
        rw [List.cons_append, evalAll_cons e happend, evalAll_cons e hrest, ih hrest, bind_assoc]
        congr 1
        funext v
        -- a part that is not true passes over all the others
        by_cases hv : v.isTruthy = true
        · simp only [if_pos hv]
        · rw [if_neg hv, if_neg hv]
          exact (if_neg hv).symm

theorem Conjunction.eval_eq {e : Expr} {parts : List Expr} (h : Conjunction e parts) :
    eval env e = evalAll env parts := by
  induction h with
  | part e => rfl
  | and hleft hright ihleft ihright =>
      rw [evalAll_append hleft.ne_nil hright.ne_nil, ← ihleft, ← ihright]
      simp only [eval]

/-! ## Chains -/

/-- A comparison is true or false, so that the last one is like the others. -/
theorem evalAll_comparison {op : BinaryOp} (hop : op.isComparison = true) (left right : Expr)
    (rest : List Expr) :
    evalAll env (.binary op left right :: rest) = (do
      let v ← eval env (.binary op left right)
      if v.isTruthy then evalAll env rest else .ok (.bool false)) := by
  by_cases hrest : rest = []
  · subst hrest
    cases h : eval env (.binary op left right) with
    | error fault => simp only [evalAll, h]; rfl
    | ok v =>
        obtain ⟨a, b, -, -, hv⟩ := of_eval_comparison hop h
        obtain ⟨holds, rfl⟩ := exists_bool_of_applyBinary hop hv
        cases holds <;> simp only [evalAll, h] <;> rfl
  · rw [evalAll_cons _ hrest]
    cases h : eval env (.binary op left right) with
    | error fault => rfl
    | ok v =>
        obtain ⟨a, b, -, -, hv⟩ := of_eval_comparison hop h
        obtain ⟨holds, rfl⟩ := exists_bool_of_applyBinary hop hv
        cases holds <;> rfl

theorem evalLinks_eq_evalAll {first : Expr} {left : Value} (hfirst : eval env first = .ok left)
    {links : List (BinaryOp × Expr)} (hops : ∀ link ∈ links, link.1.isComparison = true) :
    evalLinks env left links = evalAll env (first.comparisons links) := by
  induction links generalizing first left with
  | nil => simp only [evalLinks, Expr.comparisons, evalAll]
  | cons link links ih =>
      obtain ⟨op, right⟩ := link
      have hop : op.isComparison = true := hops (op, right) List.mem_cons_self
      have hrest : ∀ link ∈ links, link.1.isComparison = true :=
        fun link hmem => hops link (List.mem_cons_of_mem _ hmem)
      rw [evalLinks, Expr.comparisons, evalAll_comparison hop, eval_comparison hop, hfirst]
      cases hright : eval env right with
      | error fault => rfl
      | ok b =>
          rw [← ih hright hrest]
          rfl

/-- A chain with a link comes down to its comparisons. -/
theorem eval_chain {first : Expr} {links : List (BinaryOp × Expr)} (hlinks : links ≠ [])
    (hops : ∀ link ∈ links, link.1.isComparison = true) :
    eval env (.chain first links) = evalAll env (first.comparisons links) := by
  simp only [eval]
  cases hfirst : eval env first with
  | ok left => exact evalLinks_eq_evalAll hfirst hops
  | error fault =>
      cases links with
      | nil => exact absurd rfl hlinks
      | cons link links =>
          have hop := hops link List.mem_cons_self
          rw [Expr.comparisons, evalAll_comparison hop, eval_comparison hop, hfirst]
          rfl

theorem evalLinks_cons {op : BinaryOp} {right : Expr} {a b v : Value} (hb : eval env right = .ok b)
    (hv : applyBinary op a b = .ok v) (links : List (BinaryOp × Expr)) :
    evalLinks env a ((op, right) :: links) =
      if v.isTruthy then evalLinks env b links else .ok (.bool false) := by
  have hlinks : evalLinks env a ((op, right) :: links) = (do
      let holds ← applyBinary op a b
      if holds.isTruthy then evalLinks env b links else .ok (.bool false)) := by
    simp only [evalLinks, hb]
    rfl
  rw [hlinks, hv]
  rfl

/-- A link that is false ends the chain, whatever comes after it. -/
theorem evalLinks_of_false {first : Expr} {left : Value} (hfirst : eval env first = .ok left)
    {links : List (BinaryOp × Expr)} (hops : ∀ link ∈ links, link.1.isComparison = true) {k : Nat}
    {c : Expr} (htrue : ∀ e ∈ (first.comparisons links).take k, eval env e = .ok (.bool true))
    (hc : (first.comparisons links)[k]? = some c) (hfalse : eval env c = .ok (.bool false))
    (rest : List (BinaryOp × Expr)) :
    evalLinks env left (links.take (k + 1) ++ rest) = .ok (.bool false) := by
  induction links generalizing first left k with
  | nil => cases hc
  | cons link links ih =>
      obtain ⟨op, right⟩ := link
      have hop : op.isComparison = true := hops (op, right) List.mem_cons_self
      have hrest : ∀ link ∈ links, link.1.isComparison = true :=
        fun link hmem => hops link (List.mem_cons_of_mem _ hmem)
      cases k with
      | zero =>
          cases hc
          obtain ⟨a, b, ha, hb, hholds⟩ := of_eval_comparison hop hfalse
          cases hfirst.symm.trans ha
          exact evalLinks_cons hb hholds _
      | succ k =>
          have hhead : eval env (.binary op first right) = .ok (.bool true) :=
            htrue _ List.mem_cons_self
          obtain ⟨a, b, ha, hb, hholds⟩ := of_eval_comparison hop hhead
          cases hfirst.symm.trans ha
          have htail := ih hb hrest (fun e he => htrue e (List.mem_cons_of_mem _ he)) hc
          exact (evalLinks_cons hb hholds _).trans htail

/-- A chain of comparisons has the value or the fault of the conjunction of its links.  With one
link it is that comparison, and after the first link that is false it looks at nothing more. -/
theorem chain_is_conjunction {first : Expr} {links : List (BinaryOp × Expr)} (hlinks : links ≠ [])
    (hops : ∀ link ∈ links, link.1.isComparison = true) :
    (∀ e, Conjunction e (first.comparisons links) → eval env (.chain first links) = eval env e) ∧
    (∀ op right, links = [(op, right)] →
      eval env (.chain first links) = eval env (.binary op first right)) ∧
    ∀ k c, (∀ e ∈ (first.comparisons links).take k, eval env e = .ok (.bool true)) →
      (first.comparisons links)[k]? = some c → eval env c = .ok (.bool false) →
      ∀ rest, eval env (.chain first (links.take (k + 1) ++ rest)) = .ok (.bool false) := by
  have hchain : eval env (.chain first links) = evalAll env (first.comparisons links) :=
    eval_chain hlinks hops
  refine ⟨fun e he => hchain.trans he.eval_eq.symm, ?_, ?_⟩
  · rintro op right rfl
    exact hchain
  · intro k c htrue hc hfalse rest
    obtain ⟨⟨op, right⟩, links, rfl⟩ := List.exists_cons_of_ne_nil hlinks
    have hop : op.isComparison = true := hops (op, right) List.mem_cons_self
    -- the first comparison is true or false, and so the first operand has a value
    have hhead : ∃ v, eval env (.binary op first right) = .ok v := by
      cases k with
      | zero =>
          cases hc
          exact ⟨_, hfalse⟩
      | succ k => exact ⟨_, htrue _ List.mem_cons_self⟩
    obtain ⟨v, hv⟩ := hhead
    obtain ⟨left, -, hleft, -⟩ := of_eval_comparison hop hv
    simp only [eval, hleft]
    exact evalLinks_of_false hleft hops htrue hc hfalse rest

/-- Of `2 < 1 < x` the name is left alone, also where it is bound to nothing. -/
theorem chain_is_conjunction_unbound :
    let first : Expr := .literal (.int 2)
    let links : List (BinaryOp × Expr) := [(.less, .literal (.int 1)), (.less, .name "x")]
    let conjunction : Expr := .binary .and (.binary .less first (.literal (.int 1)))
      (.binary .less (.literal (.int 1)) (.name "x"))
    links ≠ [] ∧ (∀ link ∈ links, link.1.isComparison = true) ∧
      Conjunction conjunction (first.comparisons links) ∧
      eval .empty (.binary .less first (.literal (.int 1))) = .ok (.bool false) ∧
      eval .empty (.name "x") = .error (.unbound "x") ∧
      eval .empty (.chain first links) = eval .empty conjunction ∧
      eval .empty (.chain first links) = .ok (.bool false) := by
  intro first links conjunction
  have hops : ∀ link ∈ links, link.1.isComparison = true := by decide
  have hconjunction : Conjunction conjunction (first.comparisons links) := .foldLeft (.part _) [_]
  have hfalse : eval .empty (.binary .less first (.literal (.int 1))) = .ok (.bool false) := by
    simp only [first, eval]
    rfl
  have hunbound : eval .empty (.name "x") = .error (.unbound "x") := by
    simp only [eval]
    rfl
  have hlinks : links ≠ [] := List.cons_ne_nil _ _
  have hchain := @chain_is_conjunction .empty first links hlinks hops
  have hnone : ∀ e ∈ (first.comparisons links).take 0, eval .empty e = .ok (.bool true) := by simp
  exact ⟨hlinks, hops, hconjunction, hfalse, hunbound, hchain.1 _ hconjunction,
    hchain.2.2 0 _ hnone rfl hfalse [(.less, .name "x")]⟩

end Script
end CodeSessions
