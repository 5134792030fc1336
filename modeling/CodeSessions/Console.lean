import CodeSessions.Service.Basic

/-!
# Consoles — a service that answers line by line

A console takes submissions in their wire form, one on a line, and answers each with the wire form
of the reply.  Between two lines it sweeps idle sessions when the sweep interval is over.

- `Console.ofSettings` sets a console up,
- `Console.answerLine` answers a line,
- `Invocation.ofArguments?` reads the arguments of the command.
-/

namespace CodeSessions

structure Console where
  service : Service
  sweepInterval : Nat
  lastSweep : Instant

namespace Console

def ofSettings (settings : Settings) (now : Instant) : Console :=
  { service := .ofSettings settings
    sweepInterval := settings.sweepInterval.toNat
    lastSweep := now }

/-- Drops the sessions that the retention rule gives up, unless the last sweep is too recent.  An
interval of zero turns sweeps off. -/
def sweepIfDue (c : Console) (now : Instant) : Console :=
  if c.sweepInterval = 0 ∨ now - c.lastSweep < c.sweepInterval then c
  else
    let (store, _) := c.service.store.sweep (fun _ => false) c.service.retention now
    { c with service := { c.service with store }, lastSweep := now }

/-- The reply to a line that is no submission. -/
def refusal : Wire.Flaw → Reply
  | .malformed => .ofError "Submission is not valid JSON"
  | .mismatched => .ofError "Submission does not have the expected fields"

def answerLine (c : Console) (now : Instant) (line : String) : String × Console :=
  let c := c.sweepIfDue now
  match Submission.ofWire (Wire.Source.ofText line) with
  | .error flaw => ((refusal flaw).toWire, c)
  | .ok submission =>
      let (reply, service) := c.service.answer now submission
      (reply.toWire, { c with service })

end Console

/-! ## Invocations -/

/-- What the arguments of the command ask for. -/
structure Invocation where
  /-- The file with the settings; without it, the defaults hold. -/
  settingsFile : Option String := none
  deriving DecidableEq, Repr

namespace Invocation

def usage : String :=
  "usage: code-sessions [config --file FILE]"

def ofArguments? : List String → Option Invocation
  | [] => some {}
  | ["config", "--file", file] | ["config", "-f", file] => some { settingsFile := some file }
  | _ => none

end Invocation
end CodeSessions
