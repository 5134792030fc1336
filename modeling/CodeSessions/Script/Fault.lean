import CodeSessions.Script.Grammar

/-!
# Faults — why a statement cannot be carried out

The causes of faults, the kind under which each is reported, and the wording of the report.

No fault comes from a write of `print`: it would be an `IOError`, but a `Transcript` stays in memory
and takes every byte, so there is no such kind.
-/

namespace CodeSessions
namespace Script

inductive Fault
  | unbound (name : String)
  | unsupported (op : BinaryOp) (left right : Kind)
  | badOperand (op : UnaryOp) (operand : Kind)
  | unorderable (op : BinaryOp) (left right : Kind)
  | zeroDivisor
  | zeroFloatDivisor
  | zeroFloatModulus
  | overflow
  | textTooLong
  | unreadable (complaint : Complaint)
  deriving DecidableEq, Repr

inductive FaultKind
  | name
  | type
  | zeroDivision
  | overflow
  | memory
  | syntactic
  deriving DecidableEq, Repr

def FaultKind.title : FaultKind → String
  | name => "NameError"
  | type => "TypeError"
  | zeroDivision => "ZeroDivisionError"
  | overflow => "OverflowError"
  | memory => "MemoryError"
  | syntactic => "SyntaxError"

/-- The longest text, in bytes of UTF-8, that an operation may produce: 16 MiB. -/
def maxTextBytes : Nat := 16777216

namespace Fault

def kind : Fault → FaultKind
  | unbound _ => .name
  | unsupported _ _ _ | badOperand _ _ | unorderable _ _ _ => .type
  | zeroDivisor | zeroFloatDivisor | zeroFloatModulus => .zeroDivision
  | overflow => .overflow
  | textTooLong => .memory
  | unreadable _ => .syntactic

def detail : Fault → String
  | unbound name => "name '" ++ name ++ "' is not defined"
  | unsupported op left right =>
      "unsupported operand type(s) for " ++ op.symbol ++ ": '" ++ left.name ++ "' and '" ++
        right.name ++ "'"
  | badOperand op operand =>
      "bad operand type for unary " ++ op.symbol ++ ": '" ++ operand.name ++ "'"
  | unorderable op left right =>
      "unorderable types: " ++ left.name ++ "() " ++ op.symbol ++ " " ++ right.name ++ "()"
  | zeroDivisor => "integer division or modulo by zero"
  | zeroFloatDivisor => "float division by zero"
  | zeroFloatModulus => "float modulo"
  | overflow => "integer overflow"
  | textTooLong => "string longer than " ++ toString maxTextBytes ++ " bytes"
  | unreadable complaint => complaint.message

/-- The message for a fault in the statement on the given line. -/
def report (f : Fault) (line : Nat) : String :=
  f.kind.title ++ ": " ++ f.detail ++ " in <script> at line number " ++ toString line

end Fault
end Script
end CodeSessions
