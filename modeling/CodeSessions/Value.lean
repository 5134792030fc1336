import CodeSessions.Number.Decimal
import CodeSessions.Table

/-!
# Values — what a name can be bound to

The five kinds of values, the truth value that conditions give them, and the text under which
`print` shows them.  Integers have 64 bits; a float is shown as `Decimal.text` says.  `Bindings` are
the names of one environment with their values.
-/

namespace CodeSessions

inductive Value
  | none
  | bool (b : Bool)
  | int (n : Int64)
  | float (x : Float)
  | text (s : String)
  deriving DecidableEq

inductive Kind
  | none
  | bool
  | int
  | float
  | text
  deriving DecidableEq, Repr

/-- The name of a kind in fault messages. -/
def Kind.name : Kind → String
  | none => "NoneType"
  | bool => "bool"
  | int => "int"
  | float => "float"
  | text => "str"

namespace Value

def kind : Value → Kind
  | none => .none
  | bool _ => .bool
  | int _ => .int
  | float _ => .float
  | text _ => .text

/-- Zeros of both kinds and signs, the empty text, `False` and `None` are the false values; a NaN is
a true one. -/
def isTruthy : Value → Bool
  | none => false
  | bool b => b
  | int n => n != 0
  | float x => !(x == 0)
  | text s => !s.isEmpty

def display : Value → String
  | none => "None"
  | bool true => "True"
  | bool false => "False"
  | int n => toString n.toInt
  | float x => Decimal.text x
  | text s => s

/-- Sameness of kind and content, with floats compared as numbers: a NaN differs from itself, and
the two zeros are the same. -/
def same : Value → Value → Bool
  | none, none => true
  | bool a, bool b => a == b
  | int a, int b => a == b
  | float a, float b => a == b
  | text a, text b => a == b
  | _, _ => false

end Value

abbrev Bindings := Table String Value

end CodeSessions
