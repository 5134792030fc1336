import CodeSessions.Script.Token

/-!
# Grammar — from tokens to expressions and statements

Expressions are read by descent, loosest binding first:

- `or`, `and`, then `not`,
- the comparisons, then `+ -`, then `* / %`,
- the signs `+ -`, then literals, names and expressions in parentheses.

A line is read under two limits.  `maxNesting` bounds how many parentheses, signs and `not`s can be
open at once, and is built into the reader as `levels`; `maxOperators` bounds the operators of the
line, and is a budget that every finished operation is charged to.

A reader goes as far as it can: it leaves an operator alone that no operand follows, and what it has
paid stays paid where it finds nothing.  A line with tokens left over is invalid, unless one of the
limits is exceeded before the reader is done with it.
-/

namespace CodeSessions
namespace Script

/-! ## Complaints -/

inductive Limit
  | nesting
  | operators
  deriving DecidableEq, Repr

/-- Why a line cannot be read. -/
inductive Complaint
  | invalid
  | exceeded (limit : Limit)
  deriving DecidableEq, Repr

def Complaint.message : Complaint → String
  | invalid => "invalid syntax"
  | exceeded .nesting => "expression nested too deeply"
  | exceeded .operators => "expression has too many operators"

def maxNesting : Nat := 64

def maxOperators : Nat := 512

/-! ## Readers -/

/-- Reads an expression off the front of the tokens, at the cost of part of the budget.  Gives the
expression with the tokens after it, if one starts there, and what is left of the budget. -/
abbrev Reader := List Token → Nat → Except Limit (Option (Expr × List Token) × Nat)

/-- Pays for one operator. -/
def charge : Nat → Except Limit Nat
  | 0 => .error .operators
  | budget + 1 => .ok budget

/-! ## Binary operators -/

/-- The operators that `select` takes, each with its right operand, put behind those already read,
which come last first.  Every turn but the last costs at least one operator, so more than `budget`
turns and one are never needed. -/
def stepsFrom (select : BinaryOp → Bool) (operand : Reader) :
    (turns : Nat) → List (BinaryOp × Expr) → List Token → Nat →
      Except Limit ((List (BinaryOp × Expr) × List Token) × Nat)
  | turns + 1, done, .op op :: rest, budget =>
      if select op then do
        match ← operand rest budget with
        | (some (right, after), budget) =>
            let budget ← charge budget
            stepsFrom select operand turns ((op, right) :: done) after budget
        -- an operator without an operand is not taken, but looking for one may have cost something
        | (none, budget) => .ok ((done.reverse, .op op :: rest), budget)
      else .ok ((done.reverse, .op op :: rest), budget)
  | _, done, tokens, budget => .ok ((done.reverse, tokens), budget)

/-- Operands joined by operators of one level. -/
def joined (select : BinaryOp → Bool) (join : Expr → List (BinaryOp × Expr) → Expr)
    (operand : Reader) : Reader := fun tokens budget => do
  match ← operand tokens budget with
  | (some (first, rest), budget) =>
      let ((steps, rest), budget) ← stepsFrom select operand (budget + 1) [] rest budget
      .ok (some (join first steps, rest), budget)
  | (none, budget) => .ok (none, budget)

/-- Operators that associate to the left. -/
def Expr.foldLeft (first : Expr) (steps : List (BinaryOp × Expr)) : Expr :=
  steps.foldl (fun left step => .binary step.1 left step.2) first

def leftAssoc (select : BinaryOp → Bool) : Reader → Reader :=
  joined select Expr.foldLeft

/-- One link is a plain binary operation, several are a chain. -/
def Expr.compare (first : Expr) : List (BinaryOp × Expr) → Expr
  | [] => first
  | [(op, right)] => .binary op first right
  | links => .chain first links

def comparison : Reader → Reader :=
  joined BinaryOp.isComparison Expr.compare

def isFactorOp (op : BinaryOp) : Bool :=
  op == .multiply || op == .divide || op == .modulo

def isTermOp (op : BinaryOp) : Bool :=
  op == .add || op == .subtract

/-! ## Levels -/

/-- The readers that open a level of nesting. -/
structure Levels where
  expression : Reader
  negation : Reader
  signed : Reader

def primary (inner : Levels) : Reader
  | .literal value :: rest, budget => .ok (some (.literal value, rest), budget)
  | .name name :: rest, budget => .ok (some (.name name, rest), budget)
  | .opening :: rest, budget => do
      match ← inner.expression rest budget with
      | (some (value, .closing :: rest), budget) => .ok (some (value, rest), budget)
      -- a parenthesis that is not closed; what was read inside it has been paid for
      | (_, budget) => .ok (none, budget)
  | _, budget => .ok (none, budget)

/-- An operator with one operand, charged for when the operand has been read. -/
def unary (op : UnaryOp) (operand : Reader) : Reader := fun tokens budget => do
  match ← operand tokens budget with
  | (some (value, rest), budget) =>
      let budget ← charge budget
      .ok (some (.unary op value, rest), budget)
  | (none, budget) => .ok (none, budget)

/-- An operator is a sign if a unary one has its symbol. -/
def signed (inner : Levels) : Reader
  | .op op :: rest, budget =>
      match UnaryOp.ofSymbol? op.symbol with
      | some sign => unary sign inner.signed rest budget
      | none => .ok (none, budget)
  | tokens, budget => primary inner tokens budget

def negation (inner : Levels) : Reader
  | .not :: rest, budget => unary .not inner.negation rest budget
  | tokens, budget =>
      comparison (leftAssoc isTermOp (leftAssoc isFactorOp (signed inner))) tokens budget

def disjunction (inner : Levels) : Reader :=
  leftAssoc (· == .or) (leftAssoc (· == .and) (negation inner))

/-- The readers with `room` for that many levels, the present one included. -/
def levels : (room : Nat) → Levels
  | 0 =>
      { expression := fun _ _ => .error .nesting
        negation := fun _ _ => .error .nesting
        signed := fun _ _ => .error .nesting }
  | room + 1 =>
      { expression := disjunction (levels room)
        negation := negation (levels room)
        signed := signed (levels room) }

/-- Reads an expression that takes up all the tokens. -/
def readExpr (tokens : List Token) (budget : Nat) : Except Complaint (Expr × Nat) :=
  match (levels (maxNesting + 1)).expression tokens budget with
  | .ok (some (value, []), budget) => .ok (value, budget)
  -- no expression, or one with tokens behind it
  | .ok _ => .error .invalid
  | .error limit => .error (.exceeded limit)

/-! ## Statements -/

/-- The parts of `tokens` between the separators; `part` and `done` come last first. -/
def splitFrom (separator : Token) (part : List Token) (done : List (List Token)) :
    List Token → List (List Token)
  | [] => (part.reverse :: done).reverse
  | t :: rest =>
      if t = separator then splitFrom separator [] (part.reverse :: done) rest
      else splitFrom separator (t :: part) done rest

def splitAt (separator : Token) (tokens : List Token) : List (List Token) :=
  splitFrom separator [] [] tokens

/-- Reads the parts one by one, and puts what they are behind what was read before, which comes last
first.  An empty part at the end is not read, but told of. -/
def partsFrom {α : Type} (read : List Token → Nat → Except Complaint (α × Nat)) (done : List α) :
    List (List Token) → Nat → Except Complaint ((List α × Bool) × Nat)
  | [], budget => .ok ((done.reverse, false), budget)
  | [[]], budget => .ok ((done.reverse, true), budget)
  | part :: rest, budget => do
      let (value, budget) ← read part budget
      partsFrom read (value :: done) rest budget

/-- A comma after the last item of a `print` leaves the output line open. -/
def readStmt : List Token → Nat → Except Complaint (Stmt × Nat)
  | .print :: rest, budget => do
      let ((items, trailing), budget) ← partsFrom readExpr [] (splitAt .comma rest) budget
      .ok (.print items (items.isEmpty || !trailing), budget)
  | .name target :: .assign :: rest, budget => do
      let (value, budget) ← readExpr rest budget
      .ok (.assign target value, budget)
  | tokens, budget => do
      let (value, budget) ← readExpr tokens budget
      .ok (.expr value, budget)

/-- The statements of a line, between semicolons; a semicolon may end the line or be all of it. -/
def readLine (line : List Char) : Except Complaint (List Stmt) :=
  match Token.ofLine line with
  | [.semicolon] => .ok []
  | tokens => do
      let ((statements, _), _) ← partsFrom readStmt [] (splitAt .semicolon tokens) maxOperators
      .ok statements

end Script
end CodeSessions
