import CodeSessions.Proofs.Service.Serving

/-!
# Serialisation — overlapping submissions and submissions in a row

Whatever the order of the steps, the evaluations of a flow come to the same as if the submissions
had been answered one after the other, in the order in which their jobs started.

- `Flow.Serial` relates a flow, the events that led to it, and the serial run of its requests: what
  a key has in the serial run is what it will have in the flow once the running jobs are done,
- `Serial.snoc` is what all steps but the starts have in common, and `Serial.snoc_job` what those of
  one job have,
- `Serial.step` is the step, `Serial.run` the run, and `serialisable` the statement about runs.

A job is taken to be done in the serial run when it starts in the flow.  From then on it is alone on
its environment, so that its effects can be counted as taken all at once.
-/

namespace CodeSessions
namespace Flow

/-! ## The invariant -/

/-- The reply to an evaluation. -/
def replyTo (service : Service) (evaluation : Evaluation) : Reply :=
  Reply.ofOutcome service.placement (evaluation.outcome.mapError .fault)

/-- What is known of a job under way: its submission, its environment, and, if it runs, how far it
has got with the evaluation that the serial run has for it. -/
structure Known (service : Service) (log : List Served) (events : List Event) (store : Store)
    (job : Job) : Prop where
  target : ∃ submission t, submissionOf events job.number = some submission ∧
    service.catalogue.target? submission = some t ∧
    job.routed.interpreter = t.interpreter ∧ job.routed.body = t.body ∧
    store.environmentAt t.key = some job.routed.environment
  waiting : job.phase = .waiting → lifeOf events job.number = []
  running : ∀ left transcript fault, job.phase = .running left transcript fault →
    ∃ evaluation taken, ⟨job.number, some evaluation, replyTo service evaluation⟩ ∈ log ∧
      Evaluating job.number taken job.answered (lifeOf events job.number) ∧
      taken + left.length = evaluation.effects.length ∧
      left.foldl Effect.onTranscript transcript = evaluation.transcript ∧
      fault = evaluation.fault

structure Serial (service : Service) (clock : Nat → Instant) (events : List Event) (f : Flow) :
    Prop where
  wellFormed : f.WellFormed
  /-- Only the store has changed. -/
  setup : f.service = { service with store := f.service.store }
  known : ∀ job ∈ f.jobs,
    Known service (service.served clock (requests events)) events f.service.store job
  fresh : ∀ n, f.nextNumber ≤ n → submissionOf events n = none ∧ lifeOf events n = []
  submitted : ∀ n ∈ acquisitions events, ∃ submission, submissionOf events n = some submission
  nodup : (acquisitions events).Nodup
  /-- A request of the serial run is running, or its evaluation is done. -/
  logged : ∀ served ∈ service.served clock (requests events),
    Done events served ∨ ∃ job ∈ f.jobs, job.number = served.number ∧ job.phase ≠ .waiting
  /-- A job that has not started has no life, or was dropped when its time was over. -/
  dropped : ∀ n, n ∉ acquisitions events →
    lifeOf events n = [] ∨ ∃ reply, lifeOf events n = [.timedOut n reply]
  settled : ∀ k, (service.serve clock (requests events)).store.bindingsAt k = f.settledAt k

variable {service : Service} {clock : Nat → Instant} {events : List Event} {f f' : Flow}

/-- What is known of a job stays known when other jobs take steps. -/
theorem Known.frame {log log' : List Served} {store store' : Store} {job : Job}
    (h : Known service log events store job) {event : Event}
    (hevent : event.number? ≠ some job.number) (hlog : ∀ served ∈ log, served ∈ log')
    (hstore : ∀ k e, store.environmentAt k = some e → store'.environmentAt k = some e) :
    Known service log' (events ++ [event]) store' job := by
  have hlife : lifeOf (events ++ [event]) job.number = lifeOf events job.number :=
    lifeOf_snoc_of_ne hevent events
  refine { target := ?_, waiting := ?_, running := ?_ }
  · rcases h.target with ⟨submission, t, hsubmission, ht, hinterpreter, hbody, henvironment⟩
    exact ⟨submission, t, submissionOf_snoc_of_some hsubmission event, ht, hinterpreter, hbody,
      hstore t.key _ henvironment⟩
  · intro hphase
    simpa only [hlife] using h.waiting hphase
  · intro left transcript fault hphase
    rcases h.running left transcript fault hphase with ⟨evaluation, taken, hmem, hrest⟩
    exact ⟨evaluation, taken, hlog _ hmem, by simpa only [hlife] using hrest⟩

/-- A request that is done stays done when other jobs take steps. -/
theorem Done.frame {served : Served} (h : Done events served) {event : Event}
    (hevent : event.number? ≠ some served.number) : Done (events ++ [event]) served := by
  rcases h with ⟨evaluation, answered, life, hevaluation, hevaluating, hlife⟩
  have hsame : lifeOf (events ++ [event]) served.number = lifeOf events served.number :=
    lifeOf_snoc_of_ne hevent events
  exact ⟨evaluation, answered, life, hevaluation, hevaluating, hsame.trans hlife⟩

namespace Serial

/-- Before anything has happened. -/
theorem start (h : service.store.WellFormed) : Serial service clock [] { service } where
  wellFormed := .idle h
  setup := rfl
  known := by simp
  fresh := by
    intro n _
    exact ⟨rfl, rfl⟩
  submitted := by
    intro n hmem
    cases hmem
  nodup := List.nodup_nil
  logged := by
    intro served hmem
    cases hmem
  dropped := by
    intro n _
    exact .inl rfl
  settled := fun _ => rfl

theorem catalogue (h : Serial service clock events f) :
    f.service.catalogue = service.catalogue := by
  have hsetup := congrArg Service.catalogue h.setup
  simpa using hsetup

theorem placement (h : Serial service clock events f) :
    f.service.placement = service.placement := by
  have hsetup := congrArg Service.placement h.setup
  simpa using hsetup

/-- The numbers of the serial run are those of the jobs that have started. -/
theorem numbers (h : Serial service clock events f) :
    (service.served clock (requests events)).map Served.number = acquisitions events := by
  calc
    (service.served clock (requests events)).map Served.number =
        (requests events).map Prod.fst := Service.map_number_served (requests events)
    _ = acquisitions events := map_fst_requests h.submitted

theorem mem_acquisitions (h : Serial service clock events f) {served : Served}
    (hmem : served ∈ service.served clock (requests events)) :
    served.number ∈ acquisitions events := by
  have hnumber := List.mem_map_of_mem (f := Served.number) hmem
  simpa only [h.numbers] using hnumber

/-- The serial run has one entry for a number. -/
theorem served_unique (h : Serial service clock events f) {a b : Served}
    (ha : a ∈ service.served clock (requests events))
    (hb : b ∈ service.served clock (requests events)) (hnumber : a.number = b.number) : a = b := by
  have hnodup : ((service.served clock (requests events)).map Served.number).Nodup := by
    simpa only [h.numbers] using h.nodup
  exact List.inj_on_of_nodup_map hnodup ha hb hnumber

/-- A job that waits is no request of the serial run. -/
theorem not_acquired_of_waiting (h : Serial service clock events f) {job : Job}
    (hmem : job ∈ f.jobs) (hphase : job.phase = .waiting) : job.number ∉ acquisitions events := by
  intro hacquired
  have hlife := (h.known job hmem).waiting hphase
  have hstarted := mem_acquisitions_iff.mp hacquired
  simp [hlife] at hstarted

/-- A job that runs is one. -/
theorem acquired_of_running (h : Serial service clock events f) {job : Job}
    (hmem : job ∈ f.jobs) (hphase : job.phase ≠ .waiting) : job.number ∈ acquisitions events := by
  rcases hrunning : job.phase with _ | ⟨left, transcript, fault⟩
  · exact absurd hrunning hphase
  · rcases (h.known job hmem).running left transcript fault hrunning with
      ⟨_, _, _, hevaluating, _⟩
    exact mem_acquisitions_iff.mpr hevaluating.acquired_mem

/-! ## Steps that start no job -/

/-- What all steps but the starts have in common: the serial run stays where it is, and jobs that
the event is not about are as they were. -/
theorem snoc (h : Serial service clock events f) {event : Event}
    (hacquired : event.acquired? = none) (hwellFormed : f'.WellFormed)
    (hsetup : f'.service = { service with store := f'.service.store })
    (hstore : ∀ k e, f.service.store.environmentAt k = some e →
      f'.service.store.environmentAt k = some e)
    (hnext : f.nextNumber ≤ f'.nextNumber)
    (hfresh : ∀ n, f'.nextNumber ≤ n → event.submission? n = none ∧ event.number? ≠ some n)
    (hkept : ∀ job ∈ f.jobs, event.number? ≠ some job.number → job ∈ f'.jobs)
    (hknown : ∀ job ∈ f'.jobs, (job ∈ f.jobs ∧ event.number? ≠ some job.number) ∨
      Known service (service.served clock (requests events)) (events ++ [event])
        f'.service.store job)
    (hlogged : ∀ served ∈ service.served clock (requests events),
      event.number? = some served.number → Done (events ++ [event]) served ∨
        ∃ job ∈ f'.jobs, job.number = served.number ∧ job.phase ≠ .waiting)
    (hdropped : ∀ n, event.number? = some n → n ∉ acquisitions events →
      ∃ reply, lifeOf (events ++ [event]) n = [.timedOut n reply])
    (hsettled : ∀ k, f'.settledAt k = f.settledAt k) :
    Serial service clock (events ++ [event]) f' := by
  -- nobody starts, so the serial run is still the same
  have hrequests : requests (events ++ [event]) = requests events :=
    requests_snoc_of_none h.submitted hacquired
  have hacquisitions : acquisitions (events ++ [event]) = acquisitions events := by
    simp [acquisitions_snoc, hacquired]
  refine
    { wellFormed := hwellFormed, setup := hsetup, known := ?_, fresh := ?_, submitted := ?_,
      nodup := ?_, logged := ?_, dropped := ?_, settled := ?_ }
  · intro job hmem
    simp only [hrequests]
    rcases hknown job hmem with ⟨hold, hevent⟩ | hnew
    · exact (h.known job hold).frame hevent (fun _ hserved => hserved) hstore
    · exact hnew
  · intro n hn
    rcases h.fresh n (Nat.le_trans hnext hn) with ⟨hnone, hlife⟩
    rcases hfresh n hn with ⟨hsubmission, hevent⟩
    have hsame : lifeOf (events ++ [event]) n = lifeOf events n := lifeOf_snoc_of_ne hevent events
    exact ⟨by simp [submissionOf_snoc, hnone, hsubmission], hsame.trans hlife⟩
  · intro n hn
    rcases h.submitted n (by simpa only [hacquisitions] using hn) with ⟨submission, hsubmission⟩
    exact ⟨submission, submissionOf_snoc_of_some hsubmission event⟩
  · simpa only [hacquisitions] using h.nodup
  · intro served hmem
    simp only [hrequests] at hmem
    by_cases hevent : event.number? = some served.number
    · exact hlogged served hmem hevent
    · -- its job has not moved, whether it is done or not
      rcases h.logged served hmem with hdone | ⟨job, hjob, hnumber, hphase⟩
      · exact .inl (hdone.frame hevent)
      · have hother : event.number? ≠ some job.number := by simpa only [hnumber] using hevent
        exact .inr ⟨job, hkept job hjob hother, hnumber, hphase⟩
  · intro n hn
    simp only [hacquisitions] at hn
    by_cases hevent : event.number? = some n
    · exact .inr (hdropped n hevent hn)
    · simpa only [lifeOf_snoc_of_ne hevent] using h.dropped n hn
  · intro k
    have hserial := (h.settled k).trans (hsettled k).symm
    simpa only [hrequests] using hserial

/-- The same for an event that is about one job and leaves the other jobs as they were. -/
theorem snoc_job (h : Serial service clock events f) {event : Event} {job : Job}
    (hmem : job ∈ f.jobs) (hevent : event.number? = some job.number)
    (hsubmission : ∀ n, event.submission? n = none) (hacquired : event.acquired? = none)
    (hwellFormed : f'.WellFormed)
    (hsetup : f'.service = { service with store := f'.service.store })
    (hstore : ∀ k e, f.service.store.environmentAt k = some e →
      f'.service.store.environmentAt k = some e)
    (hnext : f'.nextNumber = f.nextNumber)
    (hothers : ∀ other : Job, other.number ≠ job.number → (other ∈ f'.jobs ↔ other ∈ f.jobs))
    (hknown : ∀ other ∈ f'.jobs, other.number = job.number →
      Known service (service.served clock (requests events)) (events ++ [event])
        f'.service.store other)
    (hlogged : ∀ served ∈ service.served clock (requests events), served.number = job.number →
      Done (events ++ [event]) served ∨
        ∃ other ∈ f'.jobs, other.number = served.number ∧ other.phase ≠ .waiting)
    (hdropped : job.number ∉ acquisitions events →
      ∃ reply, lifeOf (events ++ [event]) job.number = [.timedOut job.number reply])
    (hsettled : ∀ k, f'.settledAt k = f.settledAt k) :
    Serial service clock (events ++ [event]) f' := by
  -- an event is about one job only
  have hself : ∀ {n : Nat}, event.number? = some n → n = job.number := by
    intro n hn
    exact Option.some.inj (hn.symm.trans hevent)
  have hother : ∀ {n : Nat}, event.number? ≠ some n → n ≠ job.number := by
    intro n hn heq
    exact hn (heq ▸ hevent)
  refine h.snoc hacquired hwellFormed hsetup hstore (Nat.le_of_eq hnext.symm) ?_ ?_ ?_ ?_ ?_
    hsettled
  · intro n hn
    have hne : job.number ≠ n := h.wellFormed.number_ne hmem (hnext ▸ hn)
    exact ⟨hsubmission n, fun heq => hne (hself heq).symm⟩
  · intro other hmemOther hne
    exact (hothers other (hother hne)).mpr hmemOther
  · intro other hmemOther
    by_cases hnumber : other.number = job.number
    · exact .inr (hknown other hmemOther hnumber)
    · exact .inl ⟨(hothers other hnumber).mp hmemOther, fun heq => hnumber (hself heq)⟩
  · intro served hserved hnumber
    exact hlogged served hserved (hself hnumber)
  · intro n hn hidle
    have hnumber := hself hn
    subst hnumber
    exact hdropped hidle

/-- A submission that is refused changes nothing, in either run. -/
theorem refuse (h : Serial service clock events f) {now : Instant} {submission : Submission}
    {reply : Reply} (hsubmit : f.submit now submission = (f', .error reply)) :
    Serial service clock (events ++ [.refused now submission reply]) f' := by
  have hsame : f' = f := submit_error hsubmit
  subst hsame
  have hnobody : ∀ n, (Event.refused now submission reply).number? ≠ some n := by
    intro n hn
    cases hn
  refine h.snoc rfl h.wellFormed h.setup (fun _ _ hk => hk) (Nat.le_refl _) ?_ ?_ ?_ ?_ ?_
    (fun _ => rfl)
  · intro n _
    exact ⟨rfl, hnobody n⟩
  · intro job hmem _
    exact hmem
  · intro job hmem
    exact .inl ⟨hmem, hnobody job.number⟩
  · intro served _ hserved
    exact absurd hserved (hnobody served.number)
  · intro n hn
    exact absurd hn (hnobody n)

/-- A submission that is routed waits.  Its session is there at once, and is empty if it is new. -/
theorem submit (h : Serial service clock events f) {now : Instant} {submission : Submission}
    {n : Nat} (hsubmit : f.submit now submission = (f', .ok n)) :
    Serial service clock (events ++ [.submitted n now submission]) f' := by
  have hwellFormed : f'.WellFormed := h.wellFormed.step (.submit hsubmit)
  rcases submit_ok hsubmit with ⟨t, htarget, rfl, rfl⟩
  rcases h.fresh f.nextNumber (Nat.le_refl _) with ⟨hnone, hunborn⟩
  have hnobody : ∀ m, (Event.submitted f.nextNumber now submission).number? ≠ some m := by
    intro m hm
    cases hm
  have hsetup : ({ f.service with
      store := (f.service.store.lookup now t.name t.session).1 } : Service) =
      { service with store := (f.service.store.lookup now t.name t.session).1 } := by
    have hold := congrArg (fun s : Service =>
      { s with store := (f.service.store.lookup now t.name t.session).1 }) h.setup
    exact hold
  -- a lookup takes no environment away
  have hstore : ∀ k e, f.service.store.environmentAt k = some e →
      (f.service.store.lookup now t.name t.session).1.environmentAt k = some e := by
    intro k e hk
    exact Store.environmentAt_lookup_of_some hk now t.name t.session
  refine h.snoc rfl hwellFormed hsetup hstore (Nat.le_succ _) ?_ ?_ ?_ ?_ ?_ ?_
  · intro m hm
    have hne : f.nextNumber ≠ m := Nat.ne_of_lt hm
    exact ⟨by simp [Event.submission?, hne], hnobody m⟩
  · intro job hmem _
    exact List.mem_append_left _ hmem
  · intro job hmem
    rcases List.mem_append.mp hmem with hold | hnew
    · exact .inl ⟨hold, hnobody job.number⟩
    · -- the new job has its submission, its environment and no life yet
      right
      have hjob : job = f.enrolled now t := List.mem_singleton.mp hnew
      subst hjob
      refine { target := ?_, waiting := ?_, running := ?_ }
      · have hbehind := Store.environmentAt_lookup_self f.service.store now t.name t.session
        refine ⟨submission, t, ?_, by simpa only [h.catalogue] using htarget, rfl, rfl, hbehind⟩
        simp [submissionOf_snoc, enrolled, hnone, Event.submission?]
      · intro _
        exact (lifeOf_snoc_of_ne (hnobody _) events).trans hunborn
      · intro left transcript fault hphase
        cases hphase
  · intro served _ hserved
    exact absurd hserved (hnobody served.number)
  · intro m hm
    exact absurd hm (hnobody m)
  · exact settledAt_enrol h.wellFormed now t

/-- A running job takes an effect, which the serial run has taken already. -/
theorem advance (h : Serial service clock events f) {n : Nat} (hadvance : f.advance? n = some f') :
    Serial service clock (events ++ [.progressed n]) f' := by
  have hwellFormed : f'.WellFormed := h.wellFormed.step (.advance hadvance)
  rcases advance?_eq_some hadvance with ⟨job, effect, left, transcript, fault, hjob, hphase, rfl⟩
  rcases mem_of_job? hjob with ⟨hmem, rfl⟩
  have hrunning : job.phase ≠ .waiting := by simp [hphase]
  let advancedJob : Job :=
    { job with phase := .running left (effect.onTranscript transcript) fault }
  have hjobs : ∀ other, other ∈ (f.advanced job effect left transcript fault).jobs ↔
      other = advancedJob ∨ (other ∈ f.jobs ∧ other.number ≠ job.number) := by
    intro other
    have hsame : job.number = advancedJob.number := rfl
    exact mem_replace hmem hsame
  have hlife : lifeOf (events ++ [.progressed job.number]) job.number =
      lifeOf events job.number ++ [.progressed job.number] :=
    lifeOf_snoc_self (by rfl) events
  have hstore : ∀ k e, f.service.store.environmentAt k = some e →
      (f.advanced job effect left transcript fault).service.store.environmentAt k = some e := by
    intro k e hk
    exact (Store.environmentAt_setBindings f.service.store _ _ k).trans hk
  have hsetup : (f.advanced job effect left transcript fault).service =
      { service with store := (f.advanced job effect left transcript fault).service.store } := by
    have hold := congrArg (fun s : Service =>
      { s with store := (f.advanced job effect left transcript fault).service.store }) h.setup
    exact hold
  refine h.snoc_job hmem rfl (fun _ => rfl) rfl hwellFormed hsetup hstore rfl ?_ ?_ ?_ ?_ ?_
  · intro other (hne : other.number ≠ advancedJob.number)
    exact mem_replace_of_ne hne
  · intro other hother hnumber
    rcases (hjobs other).mp hother with rfl | ⟨_, hne⟩
    · rcases h.known job hmem with ⟨⟨submission, t, hsubmission, ht, hi, hb, he⟩, _, hrun⟩
      refine { target := ?_, waiting := ?_, running := ?_ }
      · exact ⟨submission, t, submissionOf_snoc_of_some hsubmission _, ht, hi, hb,
          hstore t.key _ he⟩
      · intro hwaiting
        cases hwaiting
      · -- one effect more is taken, and one less is left
        intro left' transcript' fault' hphase'
        cases hphase'
        rcases hrun _ _ _ hphase with
          ⟨evaluation, taken, hlogged, hevaluating, hcount, htranscript, hfault⟩
        have hcount' : taken + 1 + left.length = evaluation.effects.length := by
          simpa [Nat.add_assoc, Nat.add_comm 1] using hcount
        have hevaluating' : Evaluating job.number (taken + 1) job.answered
            (lifeOf (events ++ [.progressed job.number]) job.number) := by
          simpa only [hlife] using hevaluating.progressed
        exact ⟨evaluation, taken + 1, hlogged, hevaluating', hcount', htranscript, hfault⟩
    · exact absurd hnumber hne
  · -- the job goes on, and its request with it
    intro served _ hserved
    have hself := (hjobs advancedJob).mpr (.inl rfl)
    exact .inr ⟨advancedJob, hself, hserved.symm, by simp [advancedJob]⟩
  · intro hidle
    exact absurd (h.acquired_of_running hmem hrunning) hidle
  · exact settledAt_advanced h.wellFormed hmem hphase hwellFormed

/-- What a job replies when it has run to its end is what the serial run replies. -/
theorem replyOf_eq (h : Serial service clock events f) (evaluation : Evaluation) :
    f.replyOf evaluation.transcript evaluation.fault = replyTo service evaluation := by
  rw [replyOf_eq_ofOutcome, h.placement, replyTo]

/-- A running job has nothing left to do, and ends. -/
theorem finish (h : Serial service clock events f) {n : Nat} {reply? : Option Reply}
    (hfinish : f.finish? n = some (f', reply?)) :
    Serial service clock (events ++ [.ended n reply?]) f' := by
  -- the job ran for its entry in the serial run, took all effects of it, and says what it says
  have hwellFormed : f'.WellFormed := h.wellFormed.step (.finish hfinish)
  rcases finish?_eq_some hfinish with ⟨job, transcript, fault, hjob, hphase, rfl, hreply⟩
  rcases mem_of_job? hjob with ⟨hmem, rfl⟩
  have hrunning : job.phase ≠ .waiting := by simp [hphase]
  have hleft : job.left = [] := by simp [Job.left, hphase]
  refine h.snoc_job hmem rfl (fun _ => rfl) rfl hwellFormed h.setup (fun _ _ hk => hk) rfl
    ?_ ?_ ?_ ?_ ?_
  · intro other hne
    simp [mem_drop, hne]
  · intro other hother hnumber
    exact absurd hnumber (mem_drop.mp hother).2
  · -- the entry of the job in the serial run is the one it was running for
    intro served hserved hnumber
    rcases (h.known job hmem).running _ _ _ hphase with
      ⟨evaluation, taken, hlogged, hevaluating, hcount, htranscript, hfault⟩
    have hentry : served = ⟨job.number, some evaluation, replyTo service evaluation⟩ :=
      h.served_unique hserved hlogged hnumber
    have htaken : taken = evaluation.effects.length := by simpa using hcount
    have hend : reply? = if job.answered then none else some (replyTo service evaluation) := by
      have hwhole : transcript = evaluation.transcript := by simpa using htranscript
      simpa only [hwhole, hfault, h.replyOf_eq evaluation] using hreply
    subst hentry
    have hlife : lifeOf (events ++ [.ended job.number reply?]) job.number =
        lifeOf events job.number ++ [.ended job.number reply?] :=
      lifeOf_snoc_self (by rfl) events
    left
    refine ⟨evaluation, job.answered, lifeOf events job.number, rfl, ?_, ?_⟩
    · simpa only [htaken] using hevaluating
    · simpa only [← hend] using hlife
  · intro hidle
    exact absurd (h.acquired_of_running hmem hrunning) hidle
  · exact settledAt_drop h.wellFormed hmem hleft

/-- The client of a job that waits is told that its time is over, and the job is dropped. -/
theorem timeOut_waiting (h : Serial service clock events f) {job : Job} (hmem : job ∈ f.jobs)
    (hphase : job.phase = .waiting) (reply : Reply) :
    Serial service clock (events ++ [.timedOut job.number reply]) (f.drop job.number) := by
  have hidle := h.not_acquired_of_waiting hmem hphase
  have hlife : lifeOf (events ++ [.timedOut job.number reply]) job.number =
      [.timedOut job.number reply] := by
    have hsnoc : lifeOf (events ++ [.timedOut job.number reply]) job.number =
        lifeOf events job.number ++ [.timedOut job.number reply] :=
      lifeOf_snoc_self (by rfl) events
    simpa [(h.known job hmem).waiting hphase] using hsnoc
  refine h.snoc_job hmem rfl (fun _ => rfl) rfl (h.wellFormed.drop _) h.setup (fun _ _ hk => hk)
    rfl ?_ ?_ ?_ ?_ ?_
  · intro other hne
    simp [mem_drop, hne]
  · intro other hother hnumber
    exact absurd hnumber (mem_drop.mp hother).2
  · -- the serial run knows nothing of a job that has not started
    intro served hserved hnumber
    have hacquired := h.mem_acquisitions hserved
    exact absurd (hnumber ▸ hacquired) hidle
  · intro _
    exact ⟨reply, hlife⟩
  · exact settledAt_drop h.wellFormed hmem (by simp [Job.left, hphase])

/-- The client of a job that runs is told that its time is over, and the job goes on without it. -/
theorem timeOut_running (h : Serial service clock events f) {job : Job} (hmem : job ∈ f.jobs)
    (hphase : job.phase ≠ .waiting) (hanswered : job.answered = false) (reply : Reply)
    (hwellFormed : (f.replace { job with answered := true }).WellFormed) :
    Serial service clock (events ++ [.timedOut job.number reply])
      (f.replace { job with answered := true }) := by
  let answeredJob : Job := { job with answered := true }
  have hjobs : ∀ other, other ∈ (f.replace answeredJob).jobs ↔
      other = answeredJob ∨ (other ∈ f.jobs ∧ other.number ≠ job.number) := by
    intro other
    exact mem_replace hmem rfl
  have hlife : lifeOf (events ++ [.timedOut job.number reply]) job.number =
      lifeOf events job.number ++ [.timedOut job.number reply] :=
    lifeOf_snoc_self (by rfl) events
  refine h.snoc_job hmem rfl (fun _ => rfl) rfl hwellFormed h.setup (fun _ _ hk => hk) rfl
    ?_ ?_ ?_ ?_ ?_
  · intro other (hne : other.number ≠ answeredJob.number)
    exact mem_replace_of_ne hne
  · intro other hother hnumber
    rcases (hjobs other).mp hother with rfl | ⟨_, hne⟩
    · rcases h.known job hmem with ⟨⟨submission, t, hsubmission, htarget⟩, _, hrun⟩
      refine { target := ?_, waiting := ?_, running := ?_ }
      · exact ⟨submission, t, submissionOf_snoc_of_some hsubmission _, htarget⟩
      · intro hwaiting
        exact absurd hwaiting hphase
      · -- the evaluation is where it was, only that nobody waits for its reply
        intro left transcript fault hphase'
        rcases hrun left transcript fault hphase' with
          ⟨evaluation, taken, hlogged, hevaluating, hrest⟩
        have hevaluating' : Evaluating job.number taken true
            (lifeOf (events ++ [.timedOut job.number reply]) job.number) := by
          simp only [hanswered] at hevaluating
          simpa only [hlife] using hevaluating.timedOut reply
        exact ⟨evaluation, taken, hlogged, hevaluating', hrest⟩
    · exact absurd hnumber hne
  · intro served _ hserved
    have hself := (hjobs answeredJob).mpr (.inl rfl)
    exact .inr ⟨answeredJob, hself, hserved.symm, hphase⟩
  · intro hidle
    exact absurd (h.acquired_of_running hmem hphase) hidle
  · exact settledAt_answered h.wellFormed hmem

theorem timeOut (h : Serial service clock events f) {n : Nat} {reply : Reply}
    (htimeOut : f.timeOut? n = some (f', reply)) :
    Serial service clock (events ++ [.timedOut n reply]) f' := by
  have hwellFormed : f'.WellFormed := h.wellFormed.step (.timeOut htimeOut)
  rcases timeOut?_eq_some htimeOut with ⟨job, hjob, hanswered, ⟨hphase, rfl⟩ | ⟨hphase, rfl⟩⟩
  · rcases mem_of_job? hjob with ⟨hmem, rfl⟩
    exact h.timeOut_waiting hmem hphase reply
  · rcases mem_of_job? hjob with ⟨hmem, rfl⟩
    exact h.timeOut_running hmem hphase hanswered reply hwellFormed

/-! ## Starts -/

/-- What the serial run does with the next request: the evaluation that a job would start with now,
if nobody runs on its environment. -/
theorem served_next (h : Serial service clock events f) (hservice : service.store.WellFormed)
    {job : Job} (hmem : job ∈ f.jobs) (hfree : f.isLocked job.routed.environment = false) :
    ∃ submission, ∃ t : Target, submissionOf events job.number = some submission ∧
      f.service.store.environmentAt t.key = some job.routed.environment ∧
      service.served clock (requests events ++ [(job.number, submission)]) =
        service.served clock (requests events) ++
          [⟨job.number, some (f.service.evaluation job.routed),
            replyTo service (f.service.evaluation job.routed)⟩] ∧
      ∀ k,
        (service.serve clock (requests events ++ [(job.number, submission)])).store.bindingsAt k =
        if k = t.key then (f.service.evaluation job.routed).bindings (f.settledAt k)
        else f.settledAt k := by
  rcases (h.known job hmem).target with
    ⟨submission, t, hsubmission, htarget, hinterpreter, hbody, henvironment⟩
  have hkeeps := Service.serve_keeps hservice clock (requests events)
  have htarget' :
      (service.serve clock (requests events)).catalogue.target? submission = some t := by
    simpa only [hkeeps.catalogue] using htarget
  -- nothing is left to be done on the environment, so both evaluations start from its bindings
  have hbindings : (service.serve clock (requests events)).store.bindingsAt t.key =
      f.service.store.bindings job.routed.environment := by
    have hnone : f.effectsOn job.routed.environment = [] := effectsOn_of_isLocked hfree
    simp [h.settled, settledAt, henvironment, hnone]
  have hevaluation : (service.serve clock (requests events)).evaluationOf t =
      f.service.evaluation job.routed := by
    simp only [Service.evaluationOf, Target.evaluation, Service.evaluation, hbindings,
      hinterpreter, hbody]
  have hanswer := Service.answer_of_target hkeeps.store htarget' (clock job.number)
  simp only [hevaluation, hkeeps.placement] at hanswer
  refine ⟨submission, t, hsubmission, henvironment, ?_, ?_⟩
  -- one entry more, with the evaluation and the reply of the answer
  · have hsnoc := Service.served_snoc clock service (requests events) job.number submission
    simpa only [htarget', hanswer, hevaluation, Option.map_some, replyTo] using hsnoc
  · intro k
    have hsnoc := Service.serve_snoc clock service (requests events) job.number submission
    have hafter := Service.bindingsAt_storeAfter hkeeps.store (clock job.number) t k
    simpa only [hsnoc, hanswer, hevaluation, h.settled] using hafter

/-- A job starts, and the serial run takes its request from beginning to end. -/
theorem acquire (h : Serial service clock events f) (hservice : service.store.WellFormed) {n : Nat}
    (hstart : f.start? n = some f') : Serial service clock (events ++ [.acquired n]) f' := by
  have hwellFormed : f'.WellFormed := h.wellFormed.step (.start hstart)
  rcases start?_eq_some hstart with ⟨job, hjob, hphase, hfree, rfl⟩
  rcases mem_of_job? hjob with ⟨hmem, rfl⟩
  rcases h.served_next hservice hmem hfree with
    ⟨submission, t, hsubmission, henvironment, hserved, hserve⟩
  let evaluation : Evaluation := f.service.evaluation job.routed
  let startedJob : Job :=
    { job with phase := .running evaluation.effects .empty evaluation.fault }
  have hsame : job.number = startedJob.number := rfl
  have hjobs : ∀ other, other ∈ (f.replace startedJob).jobs ↔
      other = startedJob ∨ (other ∈ f.jobs ∧ other.number ≠ startedJob.number) := by
    intro other
    exact mem_replace hmem hsame
  have hself : startedJob ∈ (f.replace startedJob).jobs := (hjobs startedJob).mpr (.inl rfl)
  -- the serial run gets one request more, and that is the one of this job
  have hrequests : requests (events ++ [.acquired job.number]) =
      requests events ++ [(job.number, submission)] := by
    have hsnoc := requests_snoc h.submitted (.acquired job.number)
    simpa [Event.acquired?, hsubmission] using hsnoc
  have hacquisitions : acquisitions (events ++ [.acquired job.number]) =
      acquisitions events ++ [job.number] := by
    simp [acquisitions_snoc, Event.acquired?]
  have hidle : job.number ∉ acquisitions events := h.not_acquired_of_waiting hmem hphase
  have hlife : lifeOf (events ++ [.acquired job.number]) job.number = [.acquired job.number] := by
    have hsnoc : lifeOf (events ++ [.acquired job.number]) job.number =
        lifeOf events job.number ++ [.acquired job.number] := lifeOf_snoc_self (by rfl) events
    simpa [(h.known job hmem).waiting hphase] using hsnoc
  have hne : ∀ {m : Nat}, m ≠ job.number → (Event.acquired job.number).number? ≠ some m := by
    intro m hm heq
    exact hm (Option.some.inj heq).symm
  have hsubmissions : ∀ m, submissionOf (events ++ [.acquired job.number]) m =
      submissionOf events m := by
    intro m
    simp [submissionOf_snoc, Event.submission?]
  refine
    { wellFormed := hwellFormed, setup := h.setup, known := ?_, fresh := ?_, submitted := ?_,
      nodup := ?_, logged := ?_, dropped := ?_, settled := ?_ }
  · intro other hother
    simp only [hrequests, hserved]
    rcases (hjobs other).mp hother with rfl | ⟨hold, hnumber⟩
    · refine { target := ?_, waiting := ?_, running := ?_ }
      · rcases (h.known job hmem).target with ⟨submission', t', hknown, hrest⟩
        exact ⟨submission', t', submissionOf_snoc_of_some hknown _, hrest⟩
      · intro hwaiting
        cases hwaiting
      · -- nothing is taken yet, and everything is left
        intro left transcript fault hrunning
        cases hrunning
        have hanswered : job.answered = false := h.wellFormed.unanswered job hmem hphase
        have hevaluating : Evaluating job.number 0 job.answered
            (lifeOf (events ++ [.acquired job.number]) job.number) := by
          simpa only [hlife, hanswered] using Evaluating.acquired
        exact ⟨evaluation, 0, by simp [startedJob, evaluation], hevaluating, by simp, rfl, rfl⟩
    -- the other jobs are where they were, and the serial run only gets longer
    · exact (h.known other hold).frame (hne hnumber)
        (fun _ hmem => List.mem_append_left _ hmem) (fun _ _ hk => hk)
  · intro m hm
    have hm' : m ≠ job.number := (h.wellFormed.number_ne hmem hm).symm
    simpa only [hsubmissions, lifeOf_snoc_of_ne (hne hm')] using h.fresh m hm
  · intro m hm
    simp only [hacquisitions] at hm
    simp only [hsubmissions]
    rcases List.mem_append.mp hm with hold | hnew
    · exact h.submitted m hold
    · have hnumber : m = job.number := List.mem_singleton.mp hnew
      exact ⟨submission, by simpa only [hnumber] using hsubmission⟩
  -- a job starts once, since it waits until it does
  · simp only [hacquisitions]
    refine List.nodup_append.mpr ⟨h.nodup, by simp, ?_⟩
    intro m hm m' hm' heq
    have hnumber : m = job.number := heq.trans (List.mem_singleton.mp hm')
    exact hidle (hnumber ▸ hm)
  · intro served hmem'
    simp only [hrequests, hserved] at hmem'
    rcases List.mem_append.mp hmem' with hold | hnew
    · have hother : served.number ≠ job.number := by
        intro heq
        exact hidle (heq ▸ h.mem_acquisitions hold)
      rcases h.logged served hold with hdone | ⟨running, hrunning, hnumber, hrunningPhase⟩
      · exact .inl (hdone.frame (hne hother))
      · have hrunningNe : running.number ≠ startedJob.number := by
          simpa only [hnumber] using hother
        exact .inr ⟨running, (hjobs running).mpr (.inr ⟨hrunning, hrunningNe⟩), hnumber,
          hrunningPhase⟩
    · -- the new entry of the serial run is that of the job that has just started
      have hentry := List.mem_singleton.mp hnew
      subst hentry
      exact .inr ⟨startedJob, hself, rfl, by simp [startedJob]⟩
  · intro m hm
    simp only [hacquisitions] at hm
    have hout : m ∉ acquisitions events := fun hmem => hm (List.mem_append_left _ hmem)
    have hother : m ≠ job.number := by
      intro heq
      exact hm (by simp [heq])
    simpa only [lifeOf_snoc_of_ne (hne hother)] using h.dropped m hout
  · intro k
    have hstarted := settledAt_start h.wellFormed hmem hfree henvironment hsame.symm rfl rfl
      hwellFormed k
    simpa only [hrequests, hserve] using hstarted.symm

/-! ## Runs -/

theorem step (h : Serial service clock events f) (hservice : service.store.WellFormed)
    {event : Event} (hevent : event.keepsSessions = true) (hstep : Step f event f') :
    Serial service clock (events ++ [event]) f' := by
  cases hstep with
  | submit hsubmit => exact h.submit hsubmit
  | refuse hsubmit => exact h.refuse hsubmit
  | start hstart => exact h.acquire hservice hstart
  | advance hadvance => exact h.advance hadvance
  | finish hfinish => exact h.finish hfinish
  | timeOut htimeOut => exact h.timeOut htimeOut
  | remove interpreter id => cases hevent
  | sweep now => cases hevent

theorem run (hservice : service.store.WellFormed) (hrun : Run { service } events f)
    (hevents : ∀ event ∈ events, event.keepsSessions = true) :
    Serial service clock events f := by
  -- by induction on the run, step by step from its beginning
  induction hrun with
  | nil => exact .start hservice
  | snoc _ hstep ih =>
      have hbefore := ih (fun event hmem => hevents event (List.mem_append_left _ hmem))
      exact hbefore.step hservice (hevents _ (by simp)) hstep

end Serial

/-- Serialisability.  When no evaluation is left, the requests that started, answered in a row in
the order in which they started, come to the same bindings for every key and to the same replies;
and each of them was evaluated once and to its end, while no other was evaluated at all. -/
theorem serialisable {service : Service} (hservice : service.store.Reachable)
    {events : List Event} {f : Flow} (hrun : Run { service } events f)
    (hevents : ∀ event ∈ events, event.keepsSessions = true)
    (hidle : ∀ job ∈ f.jobs, job.phase = .waiting) (clock : Nat → Instant) :
    (requests events).map Prod.fst = acquisitions events ∧ (acquisitions events).Nodup ∧
    (∀ k, f.service.store.bindingsAt k =
      (service.serve clock (requests events)).store.bindingsAt k) ∧
    (∀ served ∈ service.served clock (requests events), Done events served) ∧
    (∀ n, n ∉ acquisitions events →
      lifeOf events n = [] ∨ ∃ reply, lifeOf events n = [.timedOut n reply]) := by
  have hserial : Serial service clock events f := .run hservice.wellFormed hrun hevents
  refine ⟨map_fst_requests hserial.submitted, hserial.nodup, ?_, ?_, hserial.dropped⟩
  · -- nothing is left to be done, so what will be settled is what is there
    intro k
    have hnone : ∀ e, f.effectsOn e = [] := by
      intro e
      refine List.flatMap_eq_nil_iff.mpr ?_
      intro job hmem
      exact Job.effectsOn_of_waiting (hidle job hmem) e
    calc
      f.service.store.bindingsAt k = f.settledAt k := by
        rcases hk : f.service.store.environmentAt k with _ | e <;>
          simp [settledAt, Store.bindingsAt, hk, hnone]
      _ = (service.serve clock (requests events)).store.bindingsAt k := (hserial.settled k).symm
  · intro served hmem
    rcases hserial.logged served hmem with hdone | ⟨job, hjob, _, hphase⟩
    · exact hdone
    · exact absurd (hidle job hjob) hphase

/-- Two submissions for one environment, of which the second starts first and loses its client, and
the first still waits. -/
theorem serialisable_without_client :
    let interpreter : Interpreter := fun body _ => ⟨[.bind body (.bool true)], some "fault"⟩
    let service : Service :=
      { catalogue := Catalogue.empty.register ["m"] interpreter, timeLimit := some 5 }
    let events : List Event :=
      [.submitted 0 0 ⟨"%m x", none⟩, .submitted 1 2 ⟨"%m y", none⟩, .acquired 1,
        .timedOut 1 (Reply.ofOutcome .normalized (.error (.timedOut 5))), .progressed 1,
        .ended 1 none]
    service.store.Reachable ∧
      (∀ event ∈ events, event.keepsSessions = true) ∧
      ∃ f, Run { service } events f ∧ (∀ job ∈ f.jobs, job.phase = .waiting) ∧
        ∀ k, f.service.store.bindingsAt k =
          (service.serve (fun _ => 9) (requests events)).store.bindingsAt k := by
  intro interpreter service events
  have hservice : service.store.Reachable := ⟨[], rfl⟩
  have hevents : ∀ event ∈ events, event.keepsSessions = true := by decide
  have hrun : ∃ f, Run { service } events f ∧ ∀ job ∈ f.jobs, job.phase = .waiting := by
    refine ⟨_, .snoc (.snoc (.snoc (.snoc (.snoc (.snoc .nil (.submit rfl)) (.submit rfl))
      (.start rfl)) (.timeOut rfl)) (.advance rfl)) (.finish rfl), ?_⟩
    intro job hmem
    rcases List.mem_singleton.mp hmem with rfl
    rfl
  rcases hrun with ⟨f, hrun, hidle⟩
  exact ⟨hservice, hevents, f, hrun, hidle,
    (serialisable hservice hrun hevents hidle (fun _ => 9)).2.2.1⟩

end Flow
end CodeSessions
