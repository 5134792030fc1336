import CodeSessions.Proofs.Service.Target
import CodeSessions.Service.Flow

/-!
# Schedules — the steps that overlapping submissions take

A flow goes from state to state by single steps of single jobs, in any order.  This file names the
steps and says once what each of them can do.

- `Flow.Event` is what a step tells of itself, `Flow.Step` is the step relation,
- `Flow.Run` are the finite sequences of steps, with their events in order,
- `submit_ok`, `start?_eq_some`, `advance?_eq_some`, `finish?_eq_some` and `timeOut?_eq_some` are
  the inversions that everything else rests on,
- `Event.number?` and `lifeOf` pick out what happened to one job.

A job is `acquired` when it starts: from then on it holds its environment until it has `ended`.
-/

namespace CodeSessions
namespace Flow

/-! ## Events -/

inductive Event
  /-- A submission is routed and becomes the job with this number. -/
  | submitted (number : Nat) (now : Instant) (submission : Submission)
  | refused (now : Instant) (submission : Submission) (reply : Reply)
  | acquired (number : Nat)
  /-- A running job takes one effect. -/
  | progressed (number : Nat)
  /-- A running job has taken its last effect, and replies if its client still waits. -/
  | ended (number : Nat) (reply? : Option Reply)
  | timedOut (number : Nat) (reply : Reply)
  | removed (interpreter id : String) (found : Bool)
  | swept (now : Instant) (count : Nat)
  deriving DecidableEq

namespace Event

/-- The job whose evaluation an event is about. -/
def number? : Event → Option Nat
  | acquired n | progressed n | ended n _ | timedOut n _ => some n
  | _ => none

def submission? (n : Nat) : Event → Option Submission
  | submitted m _ submission => if m = n then some submission else none
  | _ => none

def acquired? : Event → Option Nat
  | acquired n => some n
  | _ => none

/-- Whether an event is neither a removal nor a sweep. -/
def keepsSessions : Event → Bool
  | removed _ _ _ | swept _ _ => false
  | _ => true

end Event

inductive Step (f : Flow) : Event → Flow → Prop
  | submit {now submission n f'} (h : f.submit now submission = (f', .ok n)) :
      Step f (.submitted n now submission) f'
  | refuse {now submission reply f'} (h : f.submit now submission = (f', .error reply)) :
      Step f (.refused now submission reply) f'
  | start {n f'} (h : f.start? n = some f') : Step f (.acquired n) f'
  | advance {n f'} (h : f.advance? n = some f') : Step f (.progressed n) f'
  | finish {n reply? f'} (h : f.finish? n = some (f', reply?)) : Step f (.ended n reply?) f'
  | timeOut {n reply f'} (h : f.timeOut? n = some (f', reply)) : Step f (.timedOut n reply) f'
  | remove (interpreter id : String) :
      Step f (.removed interpreter id (f.remove interpreter id).2) (f.remove interpreter id).1
  | sweep (now : Instant) : Step f (.swept now (f.sweep now).2) (f.sweep now).1

inductive Run (f : Flow) : List Event → Flow → Prop
  | nil : Run f [] f
  | snoc {events g event g'} : Run f events g → Step g event g' → Run f (events ++ [event]) g'

/-! ## What happened to one job -/

/-- The events of one job from its start on. -/
def lifeOf (events : List Event) (n : Nat) : List Event :=
  events.filter fun event => event.number? = some n

def submissionOf (events : List Event) (n : Nat) : Option Submission :=
  events.findSome? (Event.submission? n)

/-- The jobs in the order in which they started. -/
def acquisitions (events : List Event) : List Nat :=
  events.filterMap Event.acquired?

theorem lifeOf_snoc_self {event : Event} {n : Nat} (h : event.number? = some n)
    (events : List Event) : lifeOf (events ++ [event]) n = lifeOf events n ++ [event] := by
  simp [lifeOf, h]

theorem lifeOf_snoc_of_ne {event : Event} {n : Nat} (h : event.number? ≠ some n)
    (events : List Event) : lifeOf (events ++ [event]) n = lifeOf events n := by
  simp [lifeOf, h]

theorem submissionOf_snoc (events : List Event) (event : Event) (n : Nat) :
    submissionOf (events ++ [event]) n = (submissionOf events n).or (event.submission? n) := by
  simp only [submissionOf, List.findSome?_append, List.findSome?_singleton]

/-- A submission that is known stays known. -/
theorem submissionOf_snoc_of_some {events : List Event} {n : Nat} {submission : Submission}
    (h : submissionOf events n = some submission) (event : Event) :
    submissionOf (events ++ [event]) n = some submission := by
  simp [submissionOf_snoc, h]

theorem acquisitions_snoc (events : List Event) (event : Event) :
    acquisitions (events ++ [event]) = acquisitions events ++ event.acquired?.toList := by
  cases event <;> simp [acquisitions, Event.acquired?]

theorem mem_acquisitions_iff {events : List Event} {n : Nat} :
    n ∈ acquisitions events ↔ .acquired n ∈ lifeOf events n := by
  have hevent : ∀ event : Event, event.acquired? = some n ↔ event = .acquired n := by
    intro event
    cases event <;> simp [Event.acquired?]
  simp [acquisitions, lifeOf, hevent, Event.number?]

/-! ## Jobs of a flow -/

variable {f f' : Flow} {n : Nat} {job : Job}

theorem mem_of_job? (h : f.job? n = some job) : job ∈ f.jobs ∧ job.number = n := by
  refine ⟨List.mem_of_find?_eq_some h, ?_⟩
  simpa using List.find?_some h

/-- After a replacement the jobs are the new one and the others. -/
theorem mem_replace {old other : Job} (hold : old ∈ f.jobs) (hnumber : old.number = job.number) :
    other ∈ (f.replace job).jobs ↔ other = job ∨ (other ∈ f.jobs ∧ other.number ≠ job.number) := by
  simp only [replace]
  constructor
  · intro h
    rcases List.mem_map.mp h with ⟨before, hmem, hbefore⟩
    split at hbefore
    · exact .inl hbefore.symm
    · rename_i hne
      exact .inr (hbefore ▸ ⟨hmem, hne⟩)
  · rintro (rfl | ⟨hmem, hne⟩)
    · exact List.mem_map.mpr ⟨old, hold, by simp [hnumber]⟩
    · exact List.mem_map.mpr ⟨other, hmem, by simp [hne]⟩

/-- A replacement leaves the jobs with other numbers alone. -/
theorem mem_replace_of_ne {other : Job} (hne : other.number ≠ job.number) :
    other ∈ (f.replace job).jobs ↔ other ∈ f.jobs := by
  simp only [replace, List.mem_map]
  constructor
  · rintro ⟨before, hmem, hbefore⟩
    split at hbefore
    · exact absurd (congrArg Job.number hbefore.symm) hne
    · exact hbefore ▸ hmem
  · intro hmem
    exact ⟨other, hmem, if_neg hne⟩

theorem mem_drop : job ∈ (f.drop n).jobs ↔ job ∈ f.jobs ∧ job.number ≠ n := by
  simp [drop]

/-! ## What a step can do -/

/-- The job that a target becomes, which waits for the environment it has found. -/
def enrolled (f : Flow) (now : Instant) (t : Target) : Job :=
  { number := f.nextNumber
    routed :=
      { interpreter := t.interpreter
        body := t.body
        environment := (f.service.store.lookup now t.name t.session).2 } }

theorem submit_ok {now : Instant} {submission : Submission}
    (h : f.submit now submission = (f', .ok n)) :
    ∃ t, f.service.catalogue.target? submission = some t ∧ n = f.nextNumber ∧
      f' = { f with
        service := { f.service with store := (f.service.store.lookup now t.name t.session).1 }
        jobs := f.jobs ++ [f.enrolled now t]
        nextNumber := f.nextNumber + 1 } := by
  rcases htarget : f.service.catalogue.target? submission with _ | t
  · rcases Service.route_of_no_target htarget now with ⟨failure, _, hroute⟩
    simp [submit, hroute] at h
  · refine ⟨t, rfl, ?_⟩
    simp only [submit, Service.route_of_target htarget, Prod.mk.injEq, Except.ok.injEq] at h
    exact ⟨h.2.symm, h.1.symm⟩

/-- A submission that is refused leaves no trace. -/
theorem submit_error {now : Instant} {submission : Submission} {reply : Reply}
    (h : f.submit now submission = (f', .error reply)) : f' = f := by
  simp only [submit] at h
  split at h
  · exact (congrArg Prod.fst h).symm
  · cases congrArg Prod.snd h

theorem start?_eq_some (h : f.start? n = some f') :
    ∃ job, f.job? n = some job ∧ job.phase = .waiting ∧
      f.isLocked job.routed.environment = false ∧
      f' = f.replace
        { job with
          phase := .running (f.service.evaluation job.routed).effects .empty
            (f.service.evaluation job.routed).fault } := by
  simp only [start?] at h
  rcases hjob : f.job? n with _ | job
  · simp [hjob] at h
  · refine ⟨job, rfl, ?_⟩
    -- a job starts only if it waits and nobody runs on its environment
    rcases hphase : job.phase with _ | ⟨left, transcript, fault⟩
    · rcases hlocked : f.isLocked job.routed.environment with _ | _
      · refine ⟨rfl, rfl, ?_⟩
        simpa [hjob, hphase, hlocked] using h.symm
      · simp [hjob, hphase, hlocked] at h
    · simp [hjob, hphase] at h

/-- The flow after a running job has taken an effect. -/
def advanced (f : Flow) (job : Job) (effect : Effect) (left : List Effect)
    (transcript : Transcript) (fault : Option String) : Flow :=
  { f with
    service := { f.service with
      store := f.service.store.setBindings job.routed.environment
        (effect.onBindings (f.service.store.bindings job.routed.environment)) } }.replace
    { job with phase := .running left (effect.onTranscript transcript) fault }

theorem advance?_eq_some (h : f.advance? n = some f') :
    ∃ job effect left transcript fault, f.job? n = some job ∧
      job.phase = .running (effect :: left) transcript fault ∧
      f' = f.advanced job effect left transcript fault := by
  simp only [advance?] at h
  rcases hjob : f.job? n with _ | job
  · simp [hjob] at h
  · rcases hphase : job.phase with _ | ⟨_ | ⟨effect, left⟩, transcript, fault⟩
    · simp [hjob, hphase] at h
    · simp [hjob, hphase] at h
    · refine ⟨job, effect, left, transcript, fault, rfl, hphase, ?_⟩
      simpa [hjob, hphase, advanced] using h.symm

/-- The reply of a job that has taken all its effects. -/
def replyOf (f : Flow) (transcript : Transcript) (fault : Option String) : Reply :=
  Reply.ofOutcome f.service.placement
    (match fault with
      | none => .ok transcript.text
      | some message => .error (.fault message))

/-- The reply of a job is the outcome of its evaluation. -/
theorem replyOf_eq_ofOutcome (f : Flow) (evaluation : Evaluation) :
    f.replyOf evaluation.transcript evaluation.fault =
      Reply.ofOutcome f.service.placement (evaluation.outcome.mapError .fault) := by
  simp only [replyOf, Evaluation.outcome]
  rcases evaluation.fault with _ | message <;> rfl

theorem finish?_eq_some {reply? : Option Reply} (h : f.finish? n = some (f', reply?)) :
    ∃ job transcript fault, f.job? n = some job ∧ job.phase = .running [] transcript fault ∧
      f' = f.drop n ∧
      reply? = if job.answered then none else some (f.replyOf transcript fault) := by
  simp only [finish?] at h
  rcases hjob : f.job? n with _ | job
  · simp [hjob] at h
  -- a job ends when it runs and has no effects left
  · rcases hphase : job.phase with _ | ⟨_ | ⟨effect, left⟩, transcript, fault⟩
    · simp [hjob, hphase] at h
    · refine ⟨job, transcript, fault, rfl, hphase, ?_⟩
      simp only [hjob, hphase, Option.some.injEq, Prod.mk.injEq] at h
      exact ⟨h.1.symm, h.2.symm⟩
    · simp [hjob, hphase] at h

theorem timeOut?_eq_some {reply : Reply} (h : f.timeOut? n = some (f', reply)) :
    ∃ job, f.job? n = some job ∧ job.answered = false ∧
      ((job.phase = .waiting ∧ f' = f.drop n) ∨
        (job.phase ≠ .waiting ∧ f' = f.replace { job with answered := true })) := by
  simp only [timeOut?] at h
  rcases hlimit : f.service.timeLimit with _ | limit
  · simp [hlimit] at h
  · rcases hjob : f.job? n with _ | job
    · simp [hlimit, hjob] at h
    · refine ⟨job, rfl, ?_⟩
      -- a client is told once, and the phase decides what becomes of its job
      rcases hanswered : job.answered with _ | _
      · refine ⟨rfl, ?_⟩
        rcases hphase : job.phase with _ | ⟨left, transcript, fault⟩
        · left
          simp only [hlimit, hjob, hanswered, hphase, Bool.false_eq_true, if_false,
            Option.some.injEq, Prod.mk.injEq] at h
          exact ⟨rfl, h.1.symm⟩
        · right
          simp only [hlimit, hjob, hanswered, hphase, Bool.false_eq_true, if_false,
            Option.some.injEq, Prod.mk.injEq] at h
          refine ⟨by simp, ?_⟩
          exact h.1.symm
      · simp [hlimit, hjob, hanswered] at h

end Flow
end CodeSessions
