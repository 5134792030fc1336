import CodeSessions.Value

/-!
# Syntax — operators, expressions and statements of the script language

A script is a list of statements, each with the number of the line it stands on.  Parentheses leave
no trace in an expression.  A comparison with several links, `a < b <= c`, is one `chain`.
-/

namespace CodeSessions
namespace Script

/-! ## Operators -/

inductive UnaryOp
  | negate
  | plus
  | not
  deriving DecidableEq, Repr

inductive BinaryOp
  | add
  | subtract
  | multiply
  | divide
  | modulo
  | equal
  | notEqual
  | less
  | greater
  | lessEqual
  | greaterEqual
  | and
  | or
  deriving DecidableEq, Repr

def UnaryOp.symbol : UnaryOp → String
  | negate => "-"
  | plus => "+"
  | not => "not"

def BinaryOp.symbol : BinaryOp → String
  | add => "+"
  | subtract => "-"
  | multiply => "*"
  | divide => "/"
  | modulo => "%"
  | equal => "=="
  | notEqual => "!="
  | less => "<"
  | greater => ">"
  | lessEqual => "<="
  | greaterEqual => ">="
  | and => "and"
  | or => "or"

def UnaryOp.all : List UnaryOp :=
  [negate, plus, not]

def BinaryOp.all : List BinaryOp :=
  [add, subtract, multiply, divide, modulo, equal, notEqual, less, greater, lessEqual, greaterEqual,
    and, or]

def UnaryOp.ofSymbol? (s : String) : Option UnaryOp :=
  all.find? fun op => op.symbol == s

def BinaryOp.ofSymbol? (s : String) : Option BinaryOp :=
  all.find? fun op => op.symbol == s

theorem UnaryOp.ofSymbol?_eq_some_iff {s : String} {op : UnaryOp} :
    ofSymbol? s = some op ↔ op.symbol = s := by
  constructor
  · intro h
    simpa using List.find?_some h
  · rintro rfl
    cases op <;> decide

theorem BinaryOp.ofSymbol?_eq_some_iff {s : String} {op : BinaryOp} :
    ofSymbol? s = some op ↔ op.symbol = s := by
  constructor
  · intro h
    simpa using List.find?_some h
  · rintro rfl
    cases op <;> decide

/-- The operators that a line may chain, as in `a < b <= c`. -/
def BinaryOp.isComparison : BinaryOp → Bool
  | equal | notEqual | less | greater | lessEqual | greaterEqual => true
  | _ => false

/-! ## Expressions and statements -/

inductive Expr
  | literal (value : Value)
  | name (name : String)
  | unary (op : UnaryOp) (operand : Expr)
  | binary (op : BinaryOp) (left right : Expr)
  | chain (first : Expr) (links : List (BinaryOp × Expr))

inductive Stmt
  /-- Binds a name to the value of an expression. -/
  | assign (target : String) (value : Expr)
  /-- Writes the items with spaces between them, and a line feed if `newline` is set. -/
  | print (items : List Expr) (newline : Bool)
  /-- Evaluates an expression for its faults. -/
  | expr (value : Expr)

/-- A statement and the number of its line, counted from one. -/
structure Located where
  line : Nat
  statement : Stmt

abbrev Program := List Located

end Script
end CodeSessions
