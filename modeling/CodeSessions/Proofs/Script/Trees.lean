import CodeSessions.Proofs.Script.LineByLine
import CodeSessions.Proofs.Script.Literals
import Mathlib.Algebra.Ring.Nat

/-!
# Trees — how large the expressions of a source can be

Parentheses leave no trace in a tree, and operators that associate to the left make it higher
without being nested in the source.  So neither limit of a line is a limit on the height of a tree
as such.  What they come to:

- `Expr.operatorCount`, `operatorsOn`: the operators of a tree, and of the statements of one line,
- `Path e nodes`: the expressions from the root `e` down to a leaf,
- `Derives.path_le`: the unary operators on a path are nested in the source, and the operators on it
  are at most those of the source,
- `LinesDerive.exists_derives`, `LinesDerive.operatorsOn_le`: the limits, for every expression and
  every line of a program that is read.
-/

namespace CodeSessions
namespace Script

/-! ## Operators -/

mutual

def Expr.operatorCount : Expr → Nat
  | .literal _ | .name _ => 0
  | .unary _ operand => operand.operatorCount + 1
  | .binary _ left right => left.operatorCount + right.operatorCount + 1
  -- a chain is no operator, but each of its links is one
  | .chain first links => first.operatorCount + linkCount links

/-- The links, and the operators of their operands. -/
def linkCount : List (BinaryOp × Expr) → Nat
  | [] => 0
  | (_, right) :: links => right.operatorCount + linkCount links + 1

end

theorem operatorCount_foldLeft (first : Expr) (steps : List (BinaryOp × Expr)) :
    (first.foldLeft steps).operatorCount = first.operatorCount + linkCount steps := by
  induction steps generalizing first with
  | nil => simp [Expr.foldLeft, linkCount]
  | cons step steps ih =>
      have hrest := ih (.binary step.1 first step.2)
      simp only [Expr.foldLeft, Expr.operatorCount] at hrest
      simp only [Expr.foldLeft, List.foldl_cons, hrest, linkCount]
      omega

theorem operatorCount_join (l : Level) (first : Expr) (steps : List (BinaryOp × Expr)) :
    (l.join first steps).operatorCount = first.operatorCount + linkCount steps := by
  obtain ⟨-, hjoin⟩ | hjoin := l.join_cases first steps
  · rw [hjoin, Expr.operatorCount]
  · rw [hjoin, operatorCount_foldLeft]

mutual

theorem Derives.operatorCount_eq {l : Level} {ts : List Token} {e : Expr} {depth count : Nat} :
    Derives l ts e depth count → e.operatorCount = count
  | .literal _ | .name _ => by simp only [Expr.operatorCount]
  | .parens h | .unsigned h | .affirmed h => h.operatorCount_eq
  | .negate h | .plus h | .not h => by rw [Expr.operatorCount, h.operatorCount_eq]
  | .joined _ hfirst hsteps => by
      rw [operatorCount_join, hfirst.operatorCount_eq, hsteps.linkCount_eq]

theorem Steps.linkCount_eq {l : Level} {us : List Token} {steps : List (BinaryOp × Expr)}
    {depth count : Nat} : Steps l us steps depth count → linkCount steps = count
  | .nil _ => by simp only [linkCount]
  | .cons _ _ hright hsteps => by
      rw [linkCount, hright.operatorCount_eq, hsteps.linkCount_eq]

end

theorem length_le_linkCount (links : List (BinaryOp × Expr)) : links.length ≤ linkCount links := by
  induction links with
  | nil => exact Nat.zero_le _
  | cons link links ih =>
      rw [List.length_cons, linkCount]
      omega

/-- Each of the steps is an operator. -/
theorem Steps.length_le {l : Level} {us : List Token} {steps : List (BinaryOp × Expr)}
    {depth count : Nat} (h : Steps l us steps depth count) : steps.length ≤ count :=
  h.linkCount_eq ▸ length_le_linkCount steps

/-! ## Paths -/

def Expr.operands : Expr → List Expr
  | .literal _ | .name _ => []
  | .unary _ operand => [operand]
  | .binary _ left right => [left, right]
  | .chain first links => first :: links.map Prod.snd

def Expr.isUnary : Expr → Bool
  | .unary _ _ => true
  | _ => false

/-- The expressions from the root of a tree down to one of its leaves. -/
inductive Path : Expr → List Expr → Prop
  | leaf {e : Expr} : e.operands = [] → Path e [e]
  | down {e e' : Expr} {nodes : List Expr} :
      e' ∈ e.operands → Path e' nodes → Path e (e :: nodes)

theorem Path.of_unary {op : UnaryOp} {operand : Expr} {nodes : List Expr}
    (h : Path (.unary op operand) nodes) :
    ∃ below, nodes = .unary op operand :: below ∧ Path operand below := by
  cases h with
  | leaf h => cases h
  | down hmem h =>
      cases List.mem_singleton.1 hmem
      exact ⟨_, rfl, h⟩

theorem Path.of_binary {op : BinaryOp} {left right : Expr} {nodes : List Expr}
    (h : Path (.binary op left right) nodes) :
    ∃ below, nodes = .binary op left right :: below ∧ (Path left below ∨ Path right below) := by
  cases h with
  | leaf h => cases h
  | down hmem h =>
      refine ⟨_, rfl, ?_⟩
      simp only [Expr.operands, List.mem_cons, List.not_mem_nil, or_false] at hmem
      rcases hmem with rfl | rfl
      · exact .inl h
      · exact .inr h

theorem Path.of_chain {first : Expr} {links : List (BinaryOp × Expr)} {nodes : List Expr}
    (h : Path (.chain first links) nodes) :
    ∃ below, nodes = .chain first links :: below ∧
      (Path first below ∨ ∃ link ∈ links, Path link.2 below) := by
  cases h with
  | leaf h => cases h
  | down hmem h =>
      refine ⟨_, rfl, ?_⟩
      rcases List.mem_cons.1 hmem with rfl | hmem
      · exact .inl h
      · obtain ⟨link, hlink, rfl⟩ := List.mem_map.1 hmem
        exact .inr ⟨link, hlink, h⟩

/-! ## Joined operands -/

theorem Path.of_foldLeft {first : Expr} {steps : List (BinaryOp × Expr)} {nodes : List Expr}
    (h : Path (first.foldLeft steps) nodes) :
    ∃ below, (Path first below ∨ ∃ step ∈ steps, Path step.2 below) ∧
      nodes.countP Expr.isUnary = below.countP Expr.isUnary ∧
      nodes.length ≤ below.length + steps.length := by
  induction steps generalizing first with
  | nil => exact ⟨nodes, .inl h, rfl, Nat.le_refl _⟩
  | cons step steps ih =>
      obtain ⟨below, hbelow | ⟨step', hmem, hbelow⟩, hunary, hlength⟩ := ih h
      · -- down to the first operator, which stands between the first operand and the next
        obtain ⟨below, rfl, hoperand⟩ := hbelow.of_binary
        refine ⟨below, ?_, hunary, ?_⟩
        · exact hoperand.imp_right fun hright => ⟨step, List.mem_cons_self, hright⟩
        · simp only [List.length_cons] at hlength ⊢
          omega
      · refine ⟨below, .inr ⟨step', List.mem_cons_of_mem step hmem, hbelow⟩, hunary, ?_⟩
        simp only [List.length_cons]
        omega

/-- A path through joined operands goes through no more operators than there are, none of them
unary, and then through one of the operands. -/
theorem Path.of_join {l : Level} {first : Expr} {steps : List (BinaryOp × Expr)}
    {nodes : List Expr} (h : Path (l.join first steps) nodes) :
    ∃ below, (Path first below ∨ ∃ step ∈ steps, Path step.2 below) ∧
      nodes.countP Expr.isUnary = below.countP Expr.isUnary ∧
      nodes.length ≤ below.length + steps.length := by
  obtain ⟨hsteps, hjoin⟩ | hjoin := l.join_cases first steps
  · obtain ⟨below, rfl, hbelow⟩ := (hjoin ▸ h).of_chain
    exact ⟨below, hbelow, rfl, Nat.add_le_add_left (List.length_pos_iff.2 hsteps) below.length⟩
  · exact (hjoin ▸ h).of_foldLeft

mutual

/-- A path of a tree that is derived: its unary operators are nested in the source, and all of its
operators are operators of the source. -/
theorem Derives.path_le {l : Level} {ts : List Token} {e : Expr} {depth count : Nat}
    {nodes : List Expr} : Derives l ts e depth count → Path e nodes →
      nodes.countP Expr.isUnary ≤ depth ∧ nodes.length ≤ count + 1
  | .literal _, .leaf _ => by simp [Expr.isUnary]
  | .name _, .leaf _ => by simp [Expr.isUnary]
  | .parens hderives, h => by
      obtain ⟨hdepth, hcount⟩ := hderives.path_le h
      exact ⟨Nat.le_succ_of_le hdepth, hcount⟩
  | .unsigned hderives, h | .affirmed hderives, h => hderives.path_le h
  | .negate hderives, h | .plus hderives, h | .not hderives, h => by
      obtain ⟨below, rfl, hbelow⟩ := h.of_unary
      obtain ⟨hdepth, hcount⟩ := hderives.path_le hbelow
      rw [List.countP_cons_of_pos rfl, List.length_cons]
      omega
  | .joined _ hfirst hsteps, h => by
      have hlength := hsteps.length_le
      obtain ⟨below, hbelow | ⟨step, hmem, hbelow⟩, hunary, hnodes⟩ := h.of_join
      · obtain ⟨hdepth, hcount⟩ := hfirst.path_le hbelow
        omega
      · obtain ⟨hdepth, hcount⟩ := hsteps.path_le hmem hbelow
        omega

theorem Steps.path_le {l : Level} {us : List Token} {steps : List (BinaryOp × Expr)}
    {depth count : Nat} {step : BinaryOp × Expr} {nodes : List Expr} :
    Steps l us steps depth count → step ∈ steps → Path step.2 nodes →
      nodes.countP Expr.isUnary ≤ depth ∧ nodes.length + steps.length ≤ count + 1
  | .nil _, hmem, _ => nomatch hmem
  | .cons _ _ hright hsteps, hmem, h => by
      have hlength := hsteps.length_le
      simp only [List.length_cons]
      rcases List.mem_cons.1 hmem with rfl | hmem
      · obtain ⟨hdepth, hcount⟩ := hright.path_le h
        omega
      · obtain ⟨hdepth, hcount⟩ := hsteps.path_le hmem h
        omega

end

/-! ## Statements and lines -/

def Stmt.operatorCount (s : Stmt) : Nat :=
  (s.exprs.map Expr.operatorCount).sum

/-- The operators in the statements of a line. -/
def operatorsOn (p : Program) (line : Nat) : Nat :=
  ((p.filter fun l => l.line = line).map fun l => l.statement.operatorCount).sum

theorem StmtDerives.exists_of_mem {ts : List Token} {s : Stmt} {e : Expr} {depth count : Nat}
    (h : StmtDerives ts s depth count) (he : e ∈ s.exprs) :
    ∃ us depth' count', Derives .disjunction us e depth' count' ∧ depth' ≤ depth ∧
      count' ≤ count := by
  cases h with
  | printNothing => cases he
  | print h | printOpen h => exact h.exists_of_mem he
  | assign _ h | expr h =>
      cases List.mem_singleton.1 he
      exact ⟨_, _, _, h, Nat.le_refl _, Nat.le_refl _⟩

/-- What is counted in each phrase adds up over the phrases between separators. -/
theorem Separated.sum_eq {α : Type} {separator : Token} {P : List Token → α → Nat → Nat → Prop}
    {f : α → Nat} {ts : List Token} {as : List α} {depth count : Nat}
    (h : Separated separator P ts as depth count)
    (hP : ∀ {ts a depth count}, P ts a depth count → f a = count) : (as.map f).sum = count := by
  induction h with
  | one h => simp [hP h]
  | cons h _ ih => simp [hP h, ih]

theorem StmtDerives.operatorCount_eq {ts : List Token} {s : Stmt} {depth count : Nat}
    (h : StmtDerives ts s depth count) : s.operatorCount = count := by
  cases h with
  | printNothing => rfl
  | print h | printOpen h => exact h.sum_eq Derives.operatorCount_eq
  | assign _ h | expr h => simp [Stmt.operatorCount, Stmt.exprs, h.operatorCount_eq]

theorem LineDerives.sum_operatorCount {ts : List Token} {ss : List Stmt} {depth count : Nat}
    (h : LineDerives ts ss depth count) : (ss.map Stmt.operatorCount).sum = count := by
  cases h with
  | empty | semicolon => rfl
  | statements h | terminated h => exact h.sum_eq StmtDerives.operatorCount_eq

theorem LinesDerive.exists_derives {n : Nat} {lines : List (List Char)} {p : Program} {l : Located}
    {e : Expr} (h : LinesDerive n lines p) (hl : l ∈ p) (he : e ∈ l.statement.exprs) :
    ∃ ts depth count, Derives .disjunction ts e depth count ∧ depth ≤ 64 ∧ count ≤ 512 := by
  obtain ⟨us, depth, count, hstmt, hdepth, hcount⟩ := h.exists_of_mem hl
  obtain ⟨ts, depth', count', hderives, hdepth', hcount'⟩ := hstmt.exists_of_mem he
  exact ⟨ts, depth', count', hderives, hdepth'.trans hdepth, hcount'.trans hcount⟩

theorem operatorsOn_append (p q : Program) (line : Nat) :
    operatorsOn (p ++ q) line = operatorsOn p line + operatorsOn q line := by
  simp [operatorsOn]

theorem operatorsOn_eq_zero {p : Program} {line : Nat} (h : ∀ l ∈ p, l.line ≠ line) :
    operatorsOn p line = 0 := by
  have hfilter : (p.filter fun l => l.line = line) = [] := by simpa [List.filter_eq_nil_iff] using h
  rw [operatorsOn, hfilter]
  rfl

theorem operatorsOn_map (ss : List Stmt) (n : Nat) :
    operatorsOn (ss.map fun s => ⟨n, s⟩) n = (ss.map Stmt.operatorCount).sum := by
  simp [operatorsOn, List.filter_map, Function.comp_def]

theorem LinesDerive.operatorsOn_le {n : Nat} {lines : List (List Char)} {p : Program}
    (h : LinesDerive n lines p) (line : Nat) : operatorsOn p line ≤ 512 := by
  induction h with
  | nil n => exact Nat.zero_le 512
  | @cons n _ _ _ ss _ count q _ hderives _ hcount hq ih =>
      rw [operatorsOn_append]
      by_cases hn : n = line
      · -- all statements of this line stand here, those after it have greater numbers
        subst hn
        have hrest : operatorsOn q n = 0 :=
          operatorsOn_eq_zero fun l hl => Nat.ne_of_gt (hq.numbers.1 l hl)
        rw [operatorsOn_map, hderives.sum_operatorCount, hrest]
        exact hcount
      · have hhead : operatorsOn (ss.map fun s => ⟨n, s⟩) line = 0 :=
          operatorsOn_eq_zero (List.forall_mem_map.2 fun _ _ => hn)
        rw [hhead, Nat.zero_add]
        exact ih

end Script
end CodeSessions
