import CodeSessions.Evaluation
import CodeSessions.Script.Eval
import CodeSessions.Script.Program

/-!
# Runs — carrying out a program

Statements are carried out in order, each with at most one effect, up to the first fault.

- `Stmt.run` gives the effect of one statement,
- `run` is the evaluation of a program,
- `interpreter` reads a source and runs it; a source with a bad line runs not at all.
-/

namespace CodeSessions
namespace Script

/-- Puts the items behind `text`, each with a space before it unless it is the first on its output
line. -/
def renderItems (env : Bindings) : List Expr → (text : String) → (spaced : Bool) →
    Except Fault (String × Bool)
  | [], text, spaced => .ok (text, spaced)
  | item :: items, text, spaced => do
      let value ← eval env item
      renderItems env items ((if spaced then text ++ " " else text) ++ value.display) true

/-- The effect of a statement, and whether an open output line is left behind.  A `print` writes
all its items at once or, if one of them faults, none. -/
def Stmt.run (env : Bindings) (spaced : Bool) : Stmt → Except Fault (Option Effect × Bool)
  | .assign target value => do
      let value ← eval env value
      .ok (some (.bind target value), spaced)
  | .print items newline => do
      let (text, spaced) ← renderItems env items "" spaced
      if newline then .ok (some (.write (text ++ "\n").toUTF8), false)
      else .ok (some (.write text.toUTF8), spaced)
  | .expr value => do
      let _ ← eval env value
      .ok (none, spaced)

/-- Carries out the statements that are left; `done` holds the effects so far, last first. -/
def runFrom (env : Bindings) (spaced : Bool) (done : List Effect) : Program → Evaluation
  | [] => ⟨done.reverse, none⟩
  | ⟨line, statement⟩ :: rest =>
      match statement.run env spaced with
      | .error fault => ⟨done.reverse, some (fault.report line)⟩
      | .ok (none, spaced) => runFrom env spaced done rest
      | .ok (some effect, spaced) => runFrom (effect.onBindings env) spaced (effect :: done) rest

def run (program : Program) (env : Bindings) : Evaluation :=
  runFrom env false [] program

def interpreter : Interpreter := fun source env =>
  match programOfSource source.toList with
  | .error ⟨line, complaint⟩ => ⟨[], some ((Fault.unreadable complaint).report line)⟩
  | .ok program => run program env

end Script
end CodeSessions
