import CodeSessions.Catalogue
import CodeSessions.Cell
import CodeSessions.Reply
import CodeSessions.Store
import CodeSessions.Submission

/-!
# Services — answering submissions one at a time

A service has a catalogue of interpreters, a store of sessions, and the rules under which it
answers.

- `Service.route` finds out what a submission asks for: a body, an interpreter, an environment,
- `Service.dispatch` runs it to its end,
- `Service.answer` words the outcome as a reply.

A submission that is no cell or names no known interpreter leaves the service as it was.
-/

namespace CodeSessions

structure Service where
  catalogue : Catalogue := .builtin
  store : Store := .empty
  retention : Retention := .unbounded
  placement : Placement := .normalized
  /-- How many milliseconds a client waits for an evaluation. -/
  timeLimit : Option Nat := none

/-- What a submission asks for. -/
structure Routed where
  interpreter : Interpreter
  body : String
  environment : EnvironmentId

namespace Service

def ofSettings (settings : Settings) : Service :=
  { catalogue := Catalogue.builtin.unregisterAll settings.disabledNames
    retention := .ofLimit (settings.idleLimit.map UInt64.toNat)
    placement := settings.placement
    timeLimit := settings.timeLimit.map UInt64.toNat }

/-- Reads the cell, finds its interpreter and looks its environment up, in this order. -/
def route (s : Service) (now : Instant) (submission : Submission) :
    Except Failure (Routed × Service) :=
  match Cell.ofText? submission.code with
  | none => .error .noCell
  | some cell =>
      match s.catalogue.find? cell.interpreter with
      | none => .error (.unknownInterpreter cell.interpreter)
      | some interpreter =>
          let (store, environment) := s.store.lookup now cell.interpreter submission.session?
          .ok ({ interpreter, body := cell.body, environment }, { s with store })

/-- The evaluation that a routed submission leads to on the present bindings. -/
def evaluation (s : Service) (routed : Routed) : Evaluation :=
  routed.interpreter routed.body (s.store.bindings routed.environment)

/-- Leaves the bindings of an evaluation in its environment. -/
def record (s : Service) (e : EnvironmentId) (evaluation : Evaluation) : Service :=
  { s with store := s.store.setBindings e (evaluation.bindings (s.store.bindings e)) }

/-- The output of a submission that nobody interrupts, or its failure. -/
def dispatch (s : Service) (now : Instant) (submission : Submission) : Outcome × Service :=
  match s.route now submission with
  | .error failure => (.error failure, s)
  | .ok (routed, s) =>
      let evaluation := s.evaluation routed
      (evaluation.outcome.mapError .fault, s.record routed.environment evaluation)

def answer (s : Service) (now : Instant) (submission : Submission) : Reply × Service :=
  let (outcome, s') := s.dispatch now submission
  (Reply.ofOutcome s.placement outcome, s')

end Service
end CodeSessions
