import CodeSessions.Script.Grammar

/-!
# Derivations — the grammar of script lines over tokens

`Script.Grammar` reads lines by descent, with a budget that runs down.  This file says which token
lists are expressions, statements and lines without any reading:

- `Derives l ts e depth count`: the tokens `ts` are an expression of level `l` with the tree `e`,
- `Steps l ts steps depth count`: they are operators of level `l`, each with its right operand,
- `Separated`, `StmtDerives` and `LineDerives` for items, statements and lines.

`depth` is the number of parentheses, signs and `not`s that are open at once, `count` the number of
operators.  No limit on either is part of the grammar.
-/

namespace CodeSessions
namespace Script

/-! ## Levels -/

/-- The levels of expressions, loosest binding first. -/
inductive Level
  | disjunction
  | conjunction
  | negation
  | comparison
  | sum
  | product
  | signed
  | primary
  deriving DecidableEq, Repr

namespace Level

def rank : Level → Nat
  | disjunction => 0
  | conjunction => 1
  | negation => 2
  | comparison => 3
  | sum => 4
  | product => 5
  | signed => 6
  | primary => 7

/-- The level of the operands, where a level has operators with two operands. -/
def operand? : Level → Option Level
  | disjunction => some conjunction
  | conjunction => some negation
  | comparison => some sum
  | sum => some product
  | product => some signed
  | negation | signed | primary => none

/-- The tree of an operand and the operators and operands after it.  Operators associate to the
left, but a comparison with more than one link is a chain. -/
def join : Level → Expr → List (BinaryOp × Expr) → Expr
  | comparison, first, step :: step' :: steps => .chain first (step :: step' :: steps)
  | _, first, steps => steps.foldl (fun left step => .binary step.1 left step.2) first

end Level

def BinaryOp.level : BinaryOp → Level
  | or => .disjunction
  | and => .conjunction
  | equal | notEqual | less | greater | lessEqual | greaterEqual => .comparison
  | add | subtract => .sum
  | multiply | divide | modulo => .product

/-! ## Expressions -/

mutual

inductive Derives : Level → List Token → Expr → Nat → Nat → Prop
  | literal (value : Value) : Derives .primary [.literal value] (.literal value) 0 0
  | name (name : String) : Derives .primary [.name name] (.name name) 0 0
  | parens {ts : List Token} {e : Expr} {depth count : Nat} :
      Derives .disjunction ts e depth count →
      Derives .primary (.opening :: ts ++ [.closing]) e (depth + 1) count
  | unsigned {ts : List Token} {e : Expr} {depth count : Nat} :
      Derives .primary ts e depth count → Derives .signed ts e depth count
  | negate {ts : List Token} {e : Expr} {depth count : Nat} :
      Derives .signed ts e depth count →
      Derives .signed (.op .subtract :: ts) (.unary .negate e) (depth + 1) (count + 1)
  | plus {ts : List Token} {e : Expr} {depth count : Nat} :
      Derives .signed ts e depth count →
      Derives .signed (.op .add :: ts) (.unary .plus e) (depth + 1) (count + 1)
  | affirmed {ts : List Token} {e : Expr} {depth count : Nat} :
      Derives .comparison ts e depth count → Derives .negation ts e depth count
  | not {ts : List Token} {e : Expr} {depth count : Nat} :
      Derives .negation ts e depth count →
      Derives .negation (.not :: ts) (.unary .not e) (depth + 1) (count + 1)
  | joined {l k : Level} {ts us : List Token} {first : Expr} {steps : List (BinaryOp × Expr)}
      {depth depth' count count' : Nat} (hk : l.operand? = some k) :
      Derives k ts first depth count → Steps l us steps depth' count' →
      Derives l (ts ++ us) (l.join first steps) (max depth depth') (count + count')

inductive Steps : Level → List Token → List (BinaryOp × Expr) → Nat → Nat → Prop
  | nil (l : Level) : Steps l [] [] 0 0
  | cons {l k : Level} {op : BinaryOp} {ts us : List Token} {right : Expr}
      {steps : List (BinaryOp × Expr)} {depth depth' count count' : Nat}
      (hop : op.level = l) (hk : l.operand? = some k) :
      Derives k ts right depth count → Steps l us steps depth' count' →
      Steps l (.op op :: ts ++ us) ((op, right) :: steps) (max depth depth') (count + count' + 1)

end

/-! ## The tokens of an expression -/

/-- Whether an expression of a level can start with a token. -/
def Token.opens (l : Level) : Token → Bool
  | literal _ | name _ | opening => true
  | op .add | op .subtract => l.rank ≤ Level.signed.rank
  | not => l.rank ≤ Level.negation.rank
  | _ => false

theorem Token.opens_mono {l k : Level} {t : Token} (hle : l.rank ≤ k.rank)
    (h : t.opens k = true) : t.opens l = true := by
  unfold opens at h ⊢
  -- what opens an inner level opens the outer ones; signs and `not` open down to their own level
  split at h <;> simp_all <;> omega

theorem Level.rank_lt_of_operand? {l k : Level} (hk : l.operand? = some k) : l.rank < k.rank := by
  cases l <;> cases hk <;> decide

theorem Derives.exists_cons {l : Level} {ts : List Token} {e : Expr} {depth count : Nat} :
    Derives l ts e depth count → ∃ t us, ts = t :: us ∧ t.opens l = true
  | .literal value => ⟨.literal value, [], rfl, rfl⟩
  | .name x => ⟨.name x, [], rfl, rfl⟩
  | .parens _ => ⟨.opening, _, rfl, rfl⟩
  | .unsigned h => by
      obtain ⟨t, us, rfl, ht⟩ := h.exists_cons
      exact ⟨t, us, rfl, Token.opens_mono (by decide) ht⟩
  | .negate _ => ⟨.op .subtract, _, rfl, rfl⟩
  | .plus _ => ⟨.op .add, _, rfl, rfl⟩
  | .affirmed h => by
      obtain ⟨t, us, rfl, ht⟩ := h.exists_cons
      exact ⟨t, us, rfl, Token.opens_mono (by decide) ht⟩
  | .not _ => ⟨.not, _, rfl, rfl⟩
  | .joined hk h _ => by
      obtain ⟨t, ts, rfl, ht⟩ := h.exists_cons
      exact ⟨t, _, rfl, Token.opens_mono (Nat.le_of_lt (Level.rank_lt_of_operand? hk)) ht⟩

/-- Whether a token can stand in an expression at all. -/
def Token.isInner : Token → Bool
  | literal _ | name _ | op _ | not | opening | closing => true
  | print | assign | comma | semicolon | stray => false

mutual

theorem Derives.isInner {l : Level} {ts : List Token} {e : Expr} {depth count : Nat} :
    Derives l ts e depth count → ∀ t ∈ ts, t.isInner = true
  | .literal _ => by simp [Token.isInner]
  | .name _ => by simp [Token.isInner]
  | .parens h => by simpa [Token.isInner, or_imp, forall_and] using h.isInner
  | .unsigned h => h.isInner
  | .negate h => by simpa [Token.isInner] using h.isInner
  | .plus h => by simpa [Token.isInner] using h.isInner
  | .affirmed h => h.isInner
  | .not h => by simpa [Token.isInner] using h.isInner
  | .joined _ h hsteps => by
      intro t ht
      exact (List.mem_append.1 ht).elim (h.isInner t) (hsteps.isInner t)

theorem Steps.isInner {l : Level} {ts : List Token} {steps : List (BinaryOp × Expr)}
    {depth count : Nat} : Steps l ts steps depth count → ∀ t ∈ ts, t.isInner = true
  | .nil _ => by simp
  | .cons _ _ h hsteps => by
      intro t ht
      -- the operator, then its operand, then the steps after it
      rcases List.mem_cons.1 ht with rfl | ht
      · rfl
      · exact (List.mem_append.1 ht).elim (h.isInner t) (hsteps.isInner t)

end

/-! ## Statements and lines -/

/-- One or more phrases of one kind with a separator between them. -/
inductive Separated {α : Type} (separator : Token) (P : List Token → α → Nat → Nat → Prop) :
    List Token → List α → Nat → Nat → Prop
  | one {ts : List Token} {a : α} {depth count : Nat} :
      P ts a depth count → Separated separator P ts [a] depth count
  | cons {ts us : List Token} {a : α} {as : List α} {depth depth' count count' : Nat} :
      P ts a depth count → Separated separator P us as depth' count' →
      Separated separator P (ts ++ separator :: us) (a :: as) (max depth depth') (count + count')

abbrev ItemsDerive : List Token → List Expr → Nat → Nat → Prop :=
  Separated .comma (Derives .disjunction)

inductive StmtDerives : List Token → Stmt → Nat → Nat → Prop
  | printNothing : StmtDerives [.print] (.print [] true) 0 0
  | print {ts : List Token} {items : List Expr} {depth count : Nat} :
      ItemsDerive ts items depth count → StmtDerives (.print :: ts) (.print items true) depth count
  /-- A comma at the end leaves the output line open. -/
  | printOpen {ts : List Token} {items : List Expr} {depth count : Nat} :
      ItemsDerive ts items depth count →
      StmtDerives (.print :: (ts ++ [.comma])) (.print items false) depth count
  | assign {ts : List Token} {e : Expr} {depth count : Nat} (target : String) :
      Derives .disjunction ts e depth count →
      StmtDerives (.name target :: .assign :: ts) (.assign target e) depth count
  | expr {ts : List Token} {e : Expr} {depth count : Nat} :
      Derives .disjunction ts e depth count → StmtDerives ts (.expr e) depth count

inductive LineDerives : List Token → List Stmt → Nat → Nat → Prop
  | empty : LineDerives [] [] 0 0
  | semicolon : LineDerives [.semicolon] [] 0 0
  | statements {ts : List Token} {ss : List Stmt} {depth count : Nat} :
      Separated .semicolon StmtDerives ts ss depth count → LineDerives ts ss depth count
  | terminated {ts : List Token} {ss : List Stmt} {depth count : Nat} :
      Separated .semicolon StmtDerives ts ss depth count →
      LineDerives (ts ++ [.semicolon]) ss depth count

/-! ## Parts of a line -/

/-- A phrase between separators keeps to the bounds of all of them. -/
theorem Separated.exists_of_mem {α : Type} {separator : Token}
    {P : List Token → α → Nat → Nat → Prop} {ts : List Token} {as : List α} {a : α}
    {depth count : Nat} (h : Separated separator P ts as depth count) (ha : a ∈ as) :
    ∃ us depth' count', P us a depth' count' ∧ depth' ≤ depth ∧ count' ≤ count := by
  induction h with
  | one h =>
      cases List.mem_singleton.1 ha
      exact ⟨_, _, _, h, Nat.le_refl _, Nat.le_refl _⟩
  | cons h _ ih =>
      rcases List.mem_cons.1 ha with rfl | ha
      · exact ⟨_, _, _, h, Nat.le_max_left _ _, Nat.le_add_right _ _⟩
      · rcases ih ha with ⟨us, depth', count', hderives, hdepth, hcount⟩
        exact ⟨us, depth', count', hderives, by omega, by omega⟩

theorem LineDerives.exists_of_mem {ts : List Token} {ss : List Stmt} {s : Stmt} {depth count : Nat}
    (h : LineDerives ts ss depth count) (hs : s ∈ ss) :
    ∃ us depth' count', StmtDerives us s depth' count' ∧ depth' ≤ depth ∧ count' ≤ count := by
  cases h with
  | empty => cases hs
  | semicolon => cases hs
  | statements h => exact h.exists_of_mem hs
  | terminated h => exact h.exists_of_mem hs

end Script
end CodeSessions
