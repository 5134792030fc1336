import CodeSessions.Proofs.Service.Exclusion

/-!
# Serving — submissions in a row, and what became of the jobs of a flow

Two views of one history.  A serial run answers numbered submissions one after the other; a flow
lets them overlap, and its events tell what became of each job.

- `Service.serve` answers the submissions, and `Service.served` is what became of each,
- `Flow.requests` are the submissions of a flow whose jobs started, in that order,
- `Flow.Evaluating` are the lives of a job between its start and its end,
- `Flow.Done` says that a job has done what the serial run has for it.
-/

namespace CodeSessions

/-! ## Answering in a row -/

/-- What became of one submission of a serial run. -/
structure Served where
  number : Nat
  evaluation : Option Evaluation
  reply : Reply

namespace Service

/-- Answers the submissions in order, each at the time that the clock gives it. -/
def serve (clock : Nat → Instant) (s : Service) (requests : List (Nat × Submission)) : Service :=
  requests.foldl (fun s request => (s.answer (clock request.1) request.2).2) s

def served (clock : Nat → Instant) (s : Service) : List (Nat × Submission) → List Served
  | [] => []
  | (number, submission) :: requests =>
      { number
        evaluation := (s.catalogue.target? submission).map s.evaluationOf
        reply := (s.answer (clock number) submission).1 } ::
        served clock (s.answer (clock number) submission).2 requests

variable {s : Service} {clock : Nat → Instant}

theorem serve_snoc (clock : Nat → Instant) (s : Service) (requests : List (Nat × Submission))
    (number : Nat) (submission : Submission) :
    s.serve clock (requests ++ [(number, submission)]) =
      ((s.serve clock requests).answer (clock number) submission).2 := by
  simp [serve]

theorem served_snoc (clock : Nat → Instant) (s : Service) (requests : List (Nat × Submission))
    (number : Nat) (submission : Submission) :
    s.served clock (requests ++ [(number, submission)]) =
      s.served clock requests ++
        [{ number
           evaluation := ((s.serve clock requests).catalogue.target? submission).map
             (s.serve clock requests).evaluationOf
           reply := ((s.serve clock requests).answer (clock number) submission).1 }] := by
  induction requests generalizing s with
  | nil => rfl
  | cons request requests ih =>
      have hrest := ih (s := (s.answer (clock request.1) request.2).2)
      simpa [served, serve] using hrest

theorem map_number_served (requests : List (Nat × Submission)) :
    (s.served clock requests).map Served.number = requests.map Prod.fst := by
  induction requests generalizing s with
  | nil => rfl
  | cons request requests ih => simp [served, ih]

/-- Answers leave the rules of a service alone, and its store well-formed. -/
structure Keeps (s t : Service) : Prop where
  catalogue : t.catalogue = s.catalogue
  placement : t.placement = s.placement
  store : t.store.WellFormed

theorem answer_keeps (h : s.store.WellFormed) (now : Instant) (submission : Submission) :
    Keeps s (s.answer now submission).2 := by
  rcases htarget : s.catalogue.target? submission with _ | t
  · have hanswer := answer_of_no_target htarget now
    refine { catalogue := ?_, placement := ?_, store := ?_ } <;> simp [hanswer, h]
  · have hanswer := answer_of_target h htarget now
    have hstore := wellFormed_storeAfter h now t
    refine { catalogue := ?_, placement := ?_, store := ?_ } <;> simp [hanswer, hstore]

theorem serve_keeps (h : s.store.WellFormed) (clock : Nat → Instant)
    (requests : List (Nat × Submission)) : Keeps s (s.serve clock requests) := by
  induction requests generalizing s with
  | nil => exact ⟨rfl, rfl, h⟩
  | cons request requests ih =>
      have hanswer := answer_keeps h (clock request.1) request.2
      have hrest := ih hanswer.store
      exact ⟨hrest.catalogue.trans hanswer.catalogue, hrest.placement.trans hanswer.placement,
        hrest.store⟩

end Service

namespace Flow

/-! ## What started, and what became of it -/

/-- The submissions whose jobs have started, in the order in which they started. -/
def requests (events : List Event) : List (Nat × Submission) :=
  (acquisitions events).filterMap fun n => (submissionOf events n).map fun submission =>
    (n, submission)

/-- The events of a job that runs, has taken some effects, and may have lost its client. -/
inductive Evaluating (n : Nat) : (taken : Nat) → (answered : Bool) → List Event → Prop
  | acquired : Evaluating n 0 false [.acquired n]
  | progressed {taken answered life} :
      Evaluating n taken answered life → Evaluating n (taken + 1) answered (life ++ [.progressed n])
  | timedOut {taken life} (reply : Reply) :
      Evaluating n taken false life → Evaluating n taken true (life ++ [.timedOut n reply])

/-- The job of a served submission has taken all its effects, and its client has had the reply of
the serial run unless it has been told before that the time is over. -/
def Done (events : List Event) (served : Served) : Prop :=
  ∃ evaluation answered life, served.evaluation = some evaluation ∧
    Evaluating served.number evaluation.effects.length answered life ∧
    lifeOf events served.number =
      life ++ [.ended served.number (if answered then none else some served.reply)]

theorem requests_snoc {events : List Event}
    (h : ∀ n ∈ acquisitions events, ∃ submission, submissionOf events n = some submission)
    (event : Event) :
    requests (events ++ [event]) =
      requests events ++ (event.acquired?.bind fun n =>
        (submissionOf events n).map fun submission => (n, submission)).toList := by
  have hold : (acquisitions events).filterMap (fun n =>
      (submissionOf (events ++ [event]) n).map fun submission => (n, submission)) =
      requests events := by
    refine List.filterMap_congr ?_
    intro n hmem
    rcases h n hmem with ⟨submission, hsubmission⟩
    simp only [submissionOf_snoc_of_some hsubmission, hsubmission]
  have hsplit : requests (events ++ [event]) = requests events ++
      event.acquired?.toList.filterMap fun n =>
        (submissionOf (events ++ [event]) n).map fun submission => (n, submission) := by
    simp only [requests, acquisitions_snoc, List.filterMap_append]
    exact congrArg (· ++ _) hold
  refine hsplit.trans (congrArg (requests events ++ ·) ?_)
  cases event with
  | acquired n =>
      -- the start of a job is no submission
      have hsame : submissionOf (events ++ [.acquired n]) n = submissionOf events n := by
        simp [submissionOf_snoc, Event.submission?]
      rcases hsubmission : submissionOf events n with _ | submission <;>
        simp [Event.acquired?, hsame, hsubmission]
  | _ => rfl

theorem requests_snoc_of_none {events : List Event}
    (h : ∀ n ∈ acquisitions events, ∃ submission, submissionOf events n = some submission)
    {event : Event} (hevent : event.acquired? = none) :
    requests (events ++ [event]) = requests events := by
  have hsnoc := requests_snoc h event
  simpa [hevent] using hsnoc

theorem map_fst_requests {events : List Event}
    (h : ∀ n ∈ acquisitions events, ∃ submission, submissionOf events n = some submission) :
    (requests events).map Prod.fst = acquisitions events := by
  have hself : ∀ n ∈ acquisitions events,
      (((submissionOf events n).map fun submission => (n, submission)).map Prod.fst) = some n := by
    intro n hmem
    rcases h n hmem with ⟨submission, hsubmission⟩
    simp [hsubmission]
  calc
    (requests events).map Prod.fst =
        (acquisitions events).filterMap fun n =>
          ((submissionOf events n).map fun submission => (n, submission)).map Prod.fst :=
      List.map_filterMap
    _ = (acquisitions events).filterMap some := List.filterMap_congr hself
    _ = acquisitions events := List.filterMap_some

/-- A job that runs has started. -/
theorem Evaluating.acquired_mem {n taken : Nat} {answered : Bool} {life : List Event}
    (h : Evaluating n taken answered life) : .acquired n ∈ life := by
  induction h with
  | acquired => simp
  | progressed _ ih => simp [ih]
  | timedOut _ _ ih => simp [ih]

end Flow
end CodeSessions
