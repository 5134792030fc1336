import CodeSessions.Evaluation
import CodeSessions.Script.Run
import CodeSessions.Text.Quoted

/-!
# Catalogues — the interpreters that cells can name

A catalogue maps names, which are told apart exactly and by case, to interpreters.  One interpreter
may stand under several names.
-/

namespace CodeSessions

structure Catalogue where
  entries : Table String Interpreter := .empty

namespace Catalogue

def empty : Catalogue := {}

/-- Puts an interpreter under each of the names, in place of what stood there. -/
def register (c : Catalogue) (names : List String) (interpreter : Interpreter) : Catalogue :=
  ⟨names.foldl (fun entries name => entries.set name interpreter) c.entries⟩

/-- Drops a name; other names of the same interpreter stay. -/
def unregister (c : Catalogue) (name : String) : Catalogue :=
  ⟨c.entries.erase name⟩

def find? (c : Catalogue) (name : String) : Option Interpreter :=
  c.entries.get? name

def contains (c : Catalogue) (name : String) : Bool :=
  c.entries.contains name

/-- The names in ascending order. -/
def names (c : Catalogue) : List String :=
  c.entries.keys.mergeSort fun a b => decide (a ≤ b)

/-- The names that the script language has from the start. -/
def builtinNames : List String :=
  ["python", "jython"]

def builtin : Catalogue :=
  empty.register builtinNames Script.interpreter

def unregisterAll (c : Catalogue) (names : List String) : Catalogue :=
  names.foldl unregister c

/-- A line for people who look for a fault. -/
def describe (c : Catalogue) : String :=
  "EngineRegistry \x7b names: [" ++ ", ".intercalate (c.names.map Text.quoted) ++ "] \x7d"

end Catalogue
end CodeSessions
