import CodeSessions.Script.Grammar
import CodeSessions.Text.Lines

/-!
# Programs — from source text to statements

The lines of a source are read one by one, each under limits of its own, and the first line that
cannot be read is reported.
-/

namespace CodeSessions
namespace Script

/-- The line, counted from one, that cannot be read, and why. -/
structure SyntaxFault where
  line : Nat
  complaint : Complaint
  deriving DecidableEq, Repr

/-- Reads the lines from number `n` on; `done` holds the statements before them, last first. -/
def programFrom (done : Program) (n : Nat) : List (List Char) → Except SyntaxFault Program
  | [] => .ok done.reverse
  | line :: rest =>
      match readLine line with
      | .error complaint => .error ⟨n, complaint⟩
      | .ok statements =>
          programFrom (statements.foldl (fun ps s => ⟨n, s⟩ :: ps) done) (n + 1) rest

def programOfSource (source : List Char) : Except SyntaxFault Program :=
  programFrom [] 1 (Text.lines source)

end Script
end CodeSessions
