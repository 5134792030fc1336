import CodeSessions.Service.Basic

/-!
# Flows — submissions that overlap in time

A flow is a service with evaluations under way.  A submission becomes a job when it is routed; from
then on its environment is in use.  The job waits until no other job runs on that environment,
starts, takes effect after effect, and ends with a reply.

- `Flow.submit` routes a submission,
- `Flow.start?`, `Flow.advance?` and `Flow.finish?` are the steps of a job,
- `Flow.timeOut?` answers the client of a job early: a waiting job is dropped, a running one goes
  on,
- `Flow.remove` and `Flow.sweep` drop sessions meanwhile,
- `Flow.complete` takes all steps that a job still has.

Steps are possible in any order that these functions allow.
-/

namespace CodeSessions

inductive Phase
  | waiting
  /-- Some effects have been taken, and the output so far is in the transcript. -/
  | running (left : List Effect) (transcript : Transcript) (fault : Option String)

structure Job where
  number : Nat
  routed : Routed
  phase : Phase := .waiting
  /-- Whether its client has had a reply. -/
  answered : Bool := false

namespace Job

def isRunningOn (e : EnvironmentId) (job : Job) : Bool :=
  match job.phase with
  | .waiting => false
  | .running _ _ _ => job.routed.environment == e

end Job

structure Flow where
  service : Service
  /-- The jobs under way, oldest first. -/
  jobs : List Job := []
  nextNumber : Nat := 0
  /-- Environments that are in use for another reason. -/
  handles : List EnvironmentId := []

namespace Flow

def job? (f : Flow) (number : Nat) : Option Job :=
  f.jobs.find? fun job => job.number == number

/-- Puts a job in the place of the one with its number. -/
def replace (f : Flow) (job : Job) : Flow :=
  { f with jobs := f.jobs.map fun other => if other.number = job.number then job else other }

def drop (f : Flow) (number : Nat) : Flow :=
  { f with jobs := f.jobs.filter fun job => job.number ≠ number }

/-- Whether a job or a handle refers to an environment. -/
def inUse (f : Flow) (e : EnvironmentId) : Bool :=
  f.handles.contains e || f.jobs.any fun job => job.routed.environment == e

def isLocked (f : Flow) (e : EnvironmentId) : Bool :=
  f.jobs.any (Job.isRunningOn e)

/-! ## Jobs -/

/-- Routes a submission: a new job, or the reply to one that leads nowhere. -/
def submit (f : Flow) (now : Instant) (submission : Submission) : Flow × Except Reply Nat :=
  match f.service.route now submission with
  | .error failure => (f, .error (Reply.ofOutcome f.service.placement (.error failure)))
  | .ok (routed, service) =>
      ({ f with
          service
          jobs := f.jobs ++ [{ number := f.nextNumber, routed }]
          nextNumber := f.nextNumber + 1 }, .ok f.nextNumber)

/-- Starts a waiting job on an environment on which no job runs. -/
def start? (f : Flow) (number : Nat) : Option Flow :=
  match f.job? number with
  | some job =>
      match job.phase with
      | .waiting =>
          -- the evaluation will start from what earlier jobs have left
          if f.isLocked job.routed.environment then none
          else
            let evaluation := f.service.evaluation job.routed
            some (f.replace
              { job with phase := .running evaluation.effects .empty evaluation.fault })
      | .running _ _ _ => none
  | none => none

/-- Takes the next effect of a running job. -/
def advance? (f : Flow) (number : Nat) : Option Flow :=
  match f.job? number with
  | some job =>
      match job.phase with
      | .running (effect :: left) transcript fault =>
          let e := job.routed.environment
          let store := f.service.store
          let store := store.setBindings e (effect.onBindings (store.bindings e))
          some ({ f with service := { f.service with store } }.replace
            { job with phase := .running left (effect.onTranscript transcript) fault })
      | _ => none
  | none => none

/-- Ends a job without effects left; the reply goes out if the client still waits. -/
def finish? (f : Flow) (number : Nat) : Option (Flow × Option Reply) :=
  match f.job? number with
  | some job =>
      match job.phase with
      | .running [] transcript fault =>
          let outcome : Outcome :=
            match fault with
            | none => .ok transcript.text
            | some message => .error (.fault message)
          let reply := Reply.ofOutcome f.service.placement outcome
          -- a client that has been told that the time is over hears nothing more
          some (f.drop number, if job.answered then none else some reply)
      | _ => none
  | none => none

/-- Tells the client of a job that the time is over.  A waiting job is dropped. -/
def timeOut? (f : Flow) (number : Nat) : Option (Flow × Reply) :=
  match f.service.timeLimit, f.job? number with
  | some limit, some job =>
      if job.answered then none
      else
        let reply := Reply.ofOutcome f.service.placement (.error (.timedOut limit))
        match job.phase with
        | .waiting => some (f.drop number, reply)
        -- nobody waits for it any more, but it keeps its environment until it ends
        | .running _ _ _ => some (f.replace { job with answered := true }, reply)
  | _, _ => none

/-! ## Sessions -/

def remove (f : Flow) (interpreter id : String) : Flow × Bool :=
  let (store, found) := f.service.store.remove interpreter id
  ({ f with service := { f.service with store } }, found)

/-- Drops the sessions that the retention rule gives up and whose environments are not in use. -/
def sweep (f : Flow) (now : Instant) : Flow × Nat :=
  let (store, count) := f.service.store.sweep f.inUse f.service.retention now
  ({ f with service := { f.service with store } }, count)

/-- Looks an environment up and keeps it in use. -/
def hold (f : Flow) (now : Instant) (interpreter : String) (session : Option String) : Flow :=
  let (store, e) := f.service.store.lookup now interpreter session
  { f with service := { f.service with store }, handles := e :: f.handles }

def release (f : Flow) : Flow :=
  { f with handles := [] }

/-! ## Whole jobs -/

/-- Takes effects until none is left, `fuel` at most, and ends the job. -/
def runOut (f : Flow) (number : Nat) : (fuel : Nat) → Flow × Option Reply
  | 0 => (f.finish? number).getD (f, none)
  | fuel + 1 =>
      match f.advance? number with
      | some f => f.runOut number fuel
      | none => (f.finish? number).getD (f, none)

/-- The number of effects that a job has left. -/
def effectsLeft (f : Flow) (number : Nat) : Nat :=
  match f.job? number with
  | some { phase := .running left _ _, .. } => left.length
  | _ => 0

/-- Takes all steps that a job still has, if its environment is free. -/
def complete (f : Flow) (number : Nat) : Flow × Option Reply :=
  let f := (f.start? number).getD f
  f.runOut number (f.effectsLeft number)

/-! ## Bursts -/

/-- Submits cells at one time.  Gives the number of the job of each, or the reply to one that leads
nowhere. -/
def submitAll (f : Flow) (now : Instant) : List Submission → Flow × List (Except Reply Nat)
  | [] => (f, [])
  | submission :: submissions =>
      let (f, ticket) := f.submit now submission
      let (f, tickets) := f.submitAll now submissions
      (f, ticket :: tickets)

/-- Completes jobs one after the other.  Gives their replies, and those that are there already. -/
def completeAll (f : Flow) : List (Except Reply Nat) → Flow × List Reply
  | [] => (f, [])
  | .error reply :: tickets =>
      let (f, replies) := f.completeAll tickets
      (f, reply :: replies)
  | .ok number :: tickets =>
      let (f, reply?) := f.complete number
      let (f, replies) := f.completeAll tickets
      (f, reply?.toList ++ replies)

/-- Submits the same cell `n` times over, and then completes the jobs in order. -/
def burst (f : Flow) (now : Instant) (submission : Submission) (n : Nat) : Flow × List Reply :=
  let (f, tickets) := f.submitAll now (List.replicate n submission)
  f.completeAll tickets

end Flow
end CodeSessions
