/-!
# Written texts — JSON on its way out

How texts, numbers, lists and records are written as JSON, without any blanks.

- A text stands in double quotes.  The quote, the backslash and the control characters below U+0020
  are escaped, everything else stands for itself.
- A record writes its members in order; a member that is absent is left out by its caller.
-/

namespace CodeSessions
namespace Wire

def hexDigits4 (n : Nat) : List Char :=
  let digits := Nat.toDigits 16 n
  List.replicate (4 - digits.length) '0' ++ digits

/-- The escape for a character that cannot stand for itself. -/
def escape? (c : Char) : Option String :=
  match c with
  | '"' => some "\\\""
  | '\\' => some "\\\\"
  | '\x08' => some "\\b"
  | '\x0c' => some "\\f"
  | '\n' => some "\\n"
  | '\r' => some "\\r"
  | '\t' => some "\\t"
  | c => if c.toNat < 0x20 then some (String.ofList ('\\' :: 'u' :: hexDigits4 c.toNat)) else none

def pushEscaped (done : String) (c : Char) : String :=
  match escape? c with
  | some escaped => done ++ escaped
  | none => done.push c

def text (s : String) : String :=
  (s.foldl pushEscaped "\"").push '"'

def natural (n : Nat) : String :=
  toString n

def null : String := "null"

def optional {α : Type} (write : α → String) : Option α → String
  | none => null
  | some a => write a

def list (items : List String) : String :=
  "[" ++ ",".intercalate items ++ "]"

/-- A record of members, each with its name and its written value. -/
def record (members : List (String × String)) : String :=
  "\x7b" ++ ",".intercalate (members.map fun m => text m.1 ++ ":" ++ m.2) ++ "\x7d"

/-- A member that is left out if it has no value. -/
def member? (name : String) (value : Option String) : List (String × String) :=
  match value with
  | none => []
  | some written => [(name, written)]

end Wire
end CodeSessions
