import CodeSessions.Proofs.Service.Exclusion

/-!
# Requests — from the lookup to the end of the evaluation

A request is under way from the moment at which its environment is looked up until its evaluation
has ended, or has been given up because the time was over before it started.  This file ties the
requests that the events tell of to the jobs of the flow, and both to the keys of the store.

- `Flow.Move` is what a step does to the jobs and `Flow.Change` what it does to the store; by
  `Step.move` and `Step.change` every step is one of each,
- `Change.environmentAt`: a session that a job refers to stays where it is unless it is removed,
- `Flow.UnderWay` says of the events that a request is under way, `Flow.RemovedSince` that its
  session has been removed meanwhile,
- `Flow.Tracked` is the invariant, `Tracked.step` the step and `Tracked.run` the run;
  `Tracked.underWay_iff`: the requests under way are those that have a job,
- `Flow.keyOf` and `Flow.environmentOf` are the key and the environment of a request;
  `Tracked.environmentAt`: unless it has been removed, its session is behind its key.
-/

namespace CodeSessions
namespace Flow

/-! ## What a step does -/

/-- With this event a job goes: its evaluation has ended, or its time was over before it started. -/
def Event.IsLastOf (event : Event) (job : Job) : Prop :=
  (∃ reply?, event = .ended job.number reply?) ∨
    job.phase = .waiting ∧ ∃ reply, event = .timedOut job.number reply

/-- Jobs come, go on, and go; numbers are given in ascending order. -/
inductive Move (f : Flow) : Event → List Job → Nat → Prop
  | enrolled {now submission t} (htarget : f.service.catalogue.target? submission = some t) :
      Move f (.submitted f.nextNumber now submission) (f.jobs ++ [f.enrolled now t])
        (f.nextNumber + 1)
  /-- A waiting job starts, or a running one takes an effect or loses its client. -/
  | forward {event old job} (hold : old ∈ f.jobs) (hnumber : job.number = old.number)
      (hrouted : job.routed = old.routed) (hrunning : job.phase ≠ .waiting)
      (hevent : event.number? = some old.number)
      (hstart : old.phase = .waiting → event = .acquired old.number)
      (hlast : ∀ reply?, event ≠ .ended old.number reply?) :
      Move f event (f.replace job).jobs f.nextNumber
  | gone {event job} (hmem : job ∈ f.jobs) (hlast : event.IsLastOf job) :
      Move f event (f.drop job.number).jobs f.nextNumber
  | still {event} (hnumber : event.number? = none) (hsubmission : ∀ n, event.submission? n = none) :
      Move f event f.jobs f.nextNumber

/-- The store after a step. -/
inductive Change (f : Flow) : Event → Store → Prop
  | lookedUp {now submission t} (htarget : f.service.catalogue.target? submission = some t) :
      Change f (.submitted f.nextNumber now submission)
        (f.service.store.lookup now t.name t.session).1
  | written {n job effect left transcript fault} (hjob : f.job? n = some job)
      (hphase : job.phase = .running (effect :: left) transcript fault) :
      Change f (.progressed n) (f.service.store.setBindings job.routed.environment
        (effect.onBindings (f.service.store.bindings job.routed.environment)))
  | removed (interpreter id : String) (found : Bool) :
      Change f (.removed interpreter id found) (f.service.store.remove interpreter id).1
  | swept (now : Instant) (count : Nat) :
      Change f (.swept now count) (f.service.store.sweep f.inUse f.service.retention now).1
  | none {event} (hsubmission : ∀ n, event.submission? n = none)
      (hprogress : ∀ n, event ≠ .progressed n) : Change f event f.service.store

variable {f f' : Flow} {event : Event}

theorem Step.move (hstep : Step f event f') : Move f event f'.jobs f'.nextNumber := by
  cases hstep with
  | submit hsubmit =>
      rcases submit_ok hsubmit with ⟨t, htarget, rfl, rfl⟩
      exact .enrolled htarget
  | refuse hsubmit =>
      rw [submit_error hsubmit]
      exact .still rfl (fun _ => rfl)
  | start hstart =>
      rcases start?_eq_some hstart with ⟨job, hjob, _, _, rfl⟩
      rcases mem_of_job? hjob with ⟨hmem, rfl⟩
      exact .forward hmem rfl rfl (by simp) rfl (fun _ => rfl) (fun _ => by simp)
  | advance hadvance =>
      rcases advance?_eq_some hadvance with
        ⟨job, effect, left, transcript, fault, hjob, hphase, rfl⟩
      rcases mem_of_job? hjob with ⟨hmem, rfl⟩
      exact .forward hmem rfl rfl (by simp) rfl (by simp [hphase]) (fun _ => by simp)
  | finish hfinish =>
      rcases finish?_eq_some hfinish with ⟨job, transcript, fault, hjob, _, rfl, _⟩
      rcases mem_of_job? hjob with ⟨hmem, rfl⟩
      exact .gone hmem (.inl ⟨_, rfl⟩)
  | timeOut htimeOut =>
      rcases timeOut?_eq_some htimeOut with ⟨job, hjob, _, ⟨hphase, rfl⟩ | ⟨hphase, rfl⟩⟩
      · rcases mem_of_job? hjob with ⟨hmem, rfl⟩
        exact .gone hmem (.inr ⟨hphase, _, rfl⟩)
      · rcases mem_of_job? hjob with ⟨hmem, rfl⟩
        exact .forward hmem rfl rfl hphase rfl (fun hwaiting => absurd hwaiting hphase)
          (fun _ => by simp)
  | remove interpreter id => exact .still rfl (fun _ => rfl)
  | sweep now => exact .still rfl (fun _ => rfl)

/-- A job that is there after a step was there before it, or has just been enrolled. -/
theorem Move.job_before {jobs : List Job} {next : Nat} (h : Move f event jobs next) {job : Job}
    (hmem : job ∈ jobs) :
    (∃ old ∈ f.jobs, old.number = job.number ∧ old.routed = job.routed) ∨
      ∃ now submission t, event = .submitted f.nextNumber now submission ∧
        f.service.catalogue.target? submission = some t ∧ job = f.enrolled now t := by
  cases h with
  | enrolled htarget =>
      rcases List.mem_append.mp hmem with hold | hnew
      · exact .inl ⟨job, hold, rfl, rfl⟩
      · exact .inr ⟨_, _, _, rfl, htarget, List.mem_singleton.mp hnew⟩
  | forward hold hnumber hrouted _ _ _ _ =>
      left
      rcases (mem_replace hold hnumber.symm).mp hmem with rfl | ⟨hother, _⟩
      · exact ⟨_, hold, hnumber.symm, hrouted.symm⟩
      · exact ⟨job, hother, rfl, rfl⟩
  | gone _ _ => exact .inl ⟨job, (mem_drop.mp hmem).1, rfl, rfl⟩
  | still _ _ => exact .inl ⟨job, hmem, rfl, rfl⟩

theorem Move.le_next {jobs : List Job} {next : Nat} (h : Move f event jobs next) :
    f.nextNumber ≤ next := by
  cases h with
  | enrolled _ => exact Nat.le_succ _
  | _ => exact Nat.le_refl _

/-- Apart from the jobs and their numbers a step changes the store at most. -/
theorem Step.change (hstep : Step f event f') :
    Change f event f'.service.store ∧
      f'.service = { f.service with store := f'.service.store } ∧ f'.handles = f.handles := by
  cases hstep with
  | submit hsubmit =>
      rcases submit_ok hsubmit with ⟨t, htarget, rfl, rfl⟩
      exact ⟨.lookedUp htarget, rfl, rfl⟩
  | refuse hsubmit =>
      rw [submit_error hsubmit]
      exact ⟨.none (fun _ => rfl) (fun _ => by simp), rfl, rfl⟩
  | start hstart =>
      rcases start?_eq_some hstart with ⟨_, _, _, _, rfl⟩
      exact ⟨.none (fun _ => rfl) (fun _ => by simp), rfl, rfl⟩
  | advance hadvance =>
      rcases advance?_eq_some hadvance with ⟨job, _, _, _, _, hjob, hphase, rfl⟩
      exact ⟨.written hjob hphase, rfl, rfl⟩
  | finish hfinish =>
      rcases finish?_eq_some hfinish with ⟨_, _, _, _, _, rfl, _⟩
      exact ⟨.none (fun _ => rfl) (fun _ => by simp), rfl, rfl⟩
  | timeOut htimeOut =>
      rcases timeOut?_eq_some htimeOut with ⟨_, _, _, ⟨_, rfl⟩ | ⟨_, rfl⟩⟩ <;>
        exact ⟨.none (fun _ => rfl) (fun _ => by simp), rfl, rfl⟩
  | remove interpreter id => exact ⟨.removed interpreter id _, rfl, rfl⟩
  | sweep now => exact ⟨.swept now _, rfl, rfl⟩

theorem inUse_of_mem {job : Job} (hmem : job ∈ f.jobs) : f.inUse job.routed.environment = true := by
  have hany : (f.jobs.any fun other => other.routed.environment == job.routed.environment) = true :=
    List.any_eq_true.mpr ⟨job, hmem, by simp⟩
  simp [inUse, hany]

/-- A sweep keeps the session that a job refers to as it is. -/
theorem sessionAt_sweep_of_inUse (h : f.service.store.Tidy) {k : Key} {e : EnvironmentId}
    (hk : f.service.store.environmentAt k = some e) (he : f.inUse e = true) (now : Instant) :
    (f.service.store.sweep f.inUse f.service.retention now).1.sessionAt k =
      f.service.store.sessionAt k := by
  cases k with
  | shared => rfl
  | session interpreter id =>
      rcases hsession : f.service.store.sessionAt (.session interpreter id) with _ | session
      · simp [hsession] at hk
      · have henvironment : session.environment = e := by simpa [hsession] using hk
        simp [Store.sessionAt_sweep h, hsession, Store.isKept, henvironment, he, Option.filter]

/-- A session that a job refers to stays where it is unless it is removed. -/
theorem Change.environmentAt {store : Store} (hchange : Change f event store) (h : f.WellFormed)
    {k : Key} {job : Job} (hmem : job ∈ f.jobs)
    (hk : f.service.store.environmentAt k = some job.routed.environment)
    (hevent : ∀ interpreter id found, event = .removed interpreter id found →
      k ≠ .session interpreter id) :
    store.environmentAt k = some job.routed.environment := by
  cases hchange with
  | @lookedUp now submission t _ =>
      exact Store.environmentAt_lookup_of_some hk now t.name t.session
  | written _ _ => simpa using hk
  | removed interpreter id found =>
      have hne := hevent interpreter id found rfl
      refine (Store.environmentAt_congr ?_).trans hk
      simp only [Store.sessionAt_remove, hne, if_false]
  | swept now count =>
      refine (Store.environmentAt_congr ?_).trans hk
      exact sessionAt_sweep_of_inUse h.store.toTidy hk (inUse_of_mem hmem) now
  | none _ _ => exact hk

/-! ## Requests under way -/

theorem Event.submission?_of_number? {m : Nat} (h : event.number? = some m) (n : Nat) :
    event.submission? n = none := by
  cases event with
  | submitted _ _ _ => cases h
  | _ => rfl

theorem Event.IsLastOf.number? {job : Job} (h : event.IsLastOf job) :
    event.number? = some job.number := by
  rcases h with ⟨reply?, rfl⟩ | ⟨_, reply, rfl⟩ <;> rfl

/-- A request has been looked up, and its evaluation has neither ended nor been given up. -/
def UnderWay (events : List Event) (n : Nat) : Prop :=
  submissionOf events n ≠ none ∧ (∀ reply?, .ended n reply? ∉ events) ∧
    (.acquired n ∈ events ∨ ∀ reply, .timedOut n reply ∉ events)

/-- The session of a key has been removed after a request was looked up. -/
def RemovedSince (events : List Event) (n : Nat) (k : Key) : Prop :=
  ∃ before behind interpreter id found, events = before ++ behind ∧ submissionOf before n ≠ none ∧
    k = .session interpreter id ∧ .removed interpreter id found ∈ behind

/-- The key under which a request was looked up. -/
def keyOf (c : Catalogue) (events : List Event) (n : Nat) : Option Key :=
  (submissionOf events n).bind c.keyOf?

/-- The environment that a request under way refers to. -/
def environmentOf (f : Flow) (n : Nat) : Option EnvironmentId :=
  (f.job? n).map fun job => job.routed.environment

variable {service : Service} {events : List Event} {n : Nat} {k : Key} {e : EnvironmentId}

theorem UnderWay.of_snoc (h : UnderWay (events ++ [event]) n) (hnumber : event.number? ≠ some n)
    (hsubmission : event.submission? n = none) : UnderWay events n := by
  rcases h with ⟨hknown, hended, hopen⟩
  refine ⟨?_, ?_, ?_⟩
  · simpa [submissionOf_snoc, hsubmission] using hknown
  · intro reply? hmem
    exact hended reply? (List.mem_append_left _ hmem)
  · rcases hopen with hacquired | hwaits
    · left
      rcases List.mem_append.mp hacquired with hold | hnew
      · exact hold
      · simp [← List.mem_singleton.mp hnew, Event.number?] at hnumber
    · right
      intro reply hmem
      exact hwaits reply (List.mem_append_left _ hmem)

theorem RemovedSince.append (h : RemovedSince events n k) (later : List Event) :
    RemovedSince (events ++ later) n k := by
  rcases h with ⟨before, behind, interpreter, id, found, rfl, hknown, hk, hmem⟩
  exact ⟨before, behind ++ later, interpreter, id, found, by simp, hknown, hk,
    List.mem_append_left _ hmem⟩

theorem removedSince_snoc_removed {interpreter id : String} (h : submissionOf events n ≠ none)
    (found : Bool) :
    RemovedSince (events ++ [.removed interpreter id found]) n (.session interpreter id) :=
  ⟨events, [.removed interpreter id found], interpreter, id, found, rfl, h, rfl, by simp⟩

/-! ## The invariant -/

/-- A job is for a request that has been looked up, and refers to the session behind its key unless
that has been removed since. -/
def Assigned (service : Service) (events : List Event) (store : Store) (job : Job) : Prop :=
  ∃ submission t, submissionOf events job.number = some submission ∧
    service.catalogue.target? submission = some t ∧
    (¬ RemovedSince events job.number t.key →
      store.environmentAt t.key = some job.routed.environment)

/-- What is known of a job: the request that it is for, and how far it has got. -/
structure Request (service : Service) (events : List Event) (store : Store) (job : Job) : Prop where
  assigned : Assigned service events store job
  waiting : job.phase = .waiting → ∀ event ∈ events, event.number? ≠ some job.number
  running : job.phase ≠ .waiting →
    .acquired job.number ∈ events ∧ ∀ reply?, .ended job.number reply? ∉ events

structure Tracked (service : Service) (events : List Event) (f : Flow) : Prop where
  wellFormed : f.WellFormed
  /-- Only the store has changed. -/
  setup : f.service = { service with store := f.service.store }
  handles : f.handles = []
  fresh : ∀ n, f.nextNumber ≤ n →
    submissionOf events n = none ∧ ∀ event ∈ events, event.number? ≠ some n
  known : ∀ job ∈ f.jobs, Request service events f.service.store job
  present : ∀ n, UnderWay events n → ∃ job ∈ f.jobs, job.number = n

/-- A job is for the same request after a step, and its session is where it was unless the step
removed it. -/
theorem Assigned.snoc {store : Store} {old job : Job}
    (hassigned : Assigned service events f.service.store old) (h : f.WellFormed)
    (hchange : Change f event store) (hold : old ∈ f.jobs) (hnumber : old.number = job.number)
    (hrouted : old.routed = job.routed) : Assigned service (events ++ [event]) store job := by
  rcases hassigned with ⟨submission, t, hsubmission, htarget, hkept⟩
  rw [Assigned, ← hnumber, ← hrouted]
  refine ⟨submission, t, submissionOf_snoc_of_some hsubmission event, htarget, ?_⟩
  intro hremoved
  have hk := hkept (fun hearlier => hremoved (hearlier.append [event]))
  refine hchange.environmentAt h hold hk ?_
  intro interpreter id found hevent hkey
  subst hevent
  have hknown : submissionOf events old.number ≠ none := by simp [hsubmission]
  exact hremoved (hkey ▸ removedSince_snoc_removed hknown found)

/-- What is known of a job stays known when other jobs take steps. -/
theorem Request.frame {store : Store} {job : Job} (h : f.WellFormed)
    (hchange : Change f event store) (hmem : job ∈ f.jobs)
    (hrequest : Request service events f.service.store job)
    (hevent : event.number? ≠ some job.number) : Request service (events ++ [event]) store job where
  assigned := hrequest.assigned.snoc h hchange hmem rfl rfl
  waiting := by
    intro hphase other hother
    rcases List.mem_append.mp hother with hold | hnew
    · exact hrequest.waiting hphase other hold
    · rcases List.mem_singleton.mp hnew with rfl
      exact hevent
  running := by
    intro hphase
    rcases hrequest.running hphase with ⟨hacquired, hended⟩
    refine ⟨List.mem_append_left _ hacquired, ?_⟩
    intro reply? hmem
    rcases List.mem_append.mp hmem with hold | hnew
    · exact hended reply? hold
    · simp [← List.mem_singleton.mp hnew, Event.number?] at hevent

namespace Tracked

theorem start (h : service.store.WellFormed) : Tracked service [] { service } where
  wellFormed := .idle h
  setup := rfl
  handles := rfl
  fresh := by
    intro n _
    exact ⟨rfl, by simp⟩
  known := by simp
  present := by
    rintro n ⟨hknown, _⟩
    exact absurd rfl hknown

theorem catalogue (h : Tracked service events f) : f.service.catalogue = service.catalogue := by
  have hsetup := congrArg Service.catalogue h.setup
  simpa using hsetup

theorem retention (h : Tracked service events f) : f.service.retention = service.retention := by
  have hsetup := congrArg Service.retention h.setup
  simpa using hsetup

/-- Numbers that have not been given are nobody's after a step either. -/
theorem fresh_snoc (h : Tracked service events f) {jobs : List Job} {next : Nat}
    (hmove : Move f event jobs next) {n : Nat} (hn : next ≤ n) :
    submissionOf (events ++ [event]) n = none ∧
      ∀ other ∈ events ++ [event], other.number? ≠ some n := by
  have hevent : f.nextNumber ≤ n ∧ event.submission? n = none ∧ event.number? ≠ some n := by
    cases hmove with
    | enrolled _ =>
        have hne : f.nextNumber ≠ n := Nat.ne_of_lt hn
        exact ⟨Nat.le_of_succ_le hn, by simp [Event.submission?, hne], by simp [Event.number?]⟩
    | @forward _ old _ hold _ _ _ hnumber _ _ =>
        have hne : old.number ≠ n := h.wellFormed.number_ne hold hn
        exact ⟨hn, Event.submission?_of_number? hnumber n, by simpa [hnumber] using hne⟩
    | @gone _ job hmem hgone =>
        have hne : job.number ≠ n := h.wellFormed.number_ne hmem hn
        have hnumber := hgone.number?
        exact ⟨hn, Event.submission?_of_number? hnumber n, by simpa [hnumber] using hne⟩
    | still hnumber hsubmission => exact ⟨hn, hsubmission n, by simp [hnumber]⟩
  rcases h.fresh n hevent.1 with ⟨hunknown, hunheard⟩
  refine ⟨by simp [submissionOf_snoc, hunknown, hevent.2.1], ?_⟩
  intro other hmem
  rcases List.mem_append.mp hmem with hold | hnew
  · exact hunheard other hold
  · rcases List.mem_singleton.mp hnew with rfl
    exact hevent.2.2

theorem known_snoc (h : Tracked service events f) {jobs : List Job} {next : Nat} {store : Store}
    (hmove : Move f event jobs next) (hchange : Change f event store) :
    ∀ job ∈ jobs, Request service (events ++ [event]) store job := by
  have hothers : ∀ job ∈ f.jobs, event.number? ≠ some job.number →
      Request service (events ++ [event]) store job := by
    intro job hmem hevent
    exact (h.known job hmem).frame h.wellFormed hchange hmem hevent
  intro other hother
  cases hmove with
  | @enrolled now submission t htarget =>
      rcases List.mem_append.mp hother with hold | hnew
      · exact hothers other hold (by simp [Event.number?])
      · rcases List.mem_singleton.mp hnew with rfl
        rcases h.fresh f.nextNumber (Nat.le_refl _) with ⟨hunknown, hunheard⟩
        refine ⟨⟨submission, t, ?_, h.catalogue ▸ htarget, ?_⟩, ?_, ?_⟩
        · simp [enrolled, submissionOf_snoc, hunknown, Event.submission?]
        · -- the environment that the lookup has found is behind the key by then
          intro _
          cases hchange with
          | lookedUp htarget' =>
              have ht := htarget.symm.trans htarget'
              injection ht with ht
              subst ht
              exact Store.environmentAt_lookup_self f.service.store now t.name t.session
          | none hsubmission _ => simp [Event.submission?] at hsubmission
        · intro _ event hmem
          rcases List.mem_append.mp hmem with hold | hnew
          · exact hunheard event hold
          · simp [List.mem_singleton.mp hnew, Event.number?]
        · intro hrunning
          exact absurd rfl hrunning
  | @forward _ old job hold hnumber hrouted hrunning hevent hstart hlast =>
      rcases (mem_replace hold hnumber.symm).mp hother with rfl | ⟨hmem, hne⟩
      · have hrequest := h.known old hold
        refine ⟨hrequest.assigned.snoc h.wellFormed hchange hold hnumber.symm hrouted.symm, ?_, ?_⟩
        · intro hwaiting
          exact absurd hwaiting hrunning
        · intro _
          rw [hnumber]
          -- the job has started just now, or earlier
          have hbefore : .acquired old.number ∈ events ++ [event] ∧
              ∀ reply?, .ended old.number reply? ∉ events := by
            by_cases hphase : old.phase = .waiting
            · refine ⟨by simp [hstart hphase], ?_⟩
              intro reply? hmem
              exact hrequest.waiting hphase _ hmem rfl
            · rcases hrequest.running hphase with ⟨hacquired, hended⟩
              exact ⟨List.mem_append_left _ hacquired, hended⟩
          refine ⟨hbefore.1, ?_⟩
          intro reply? hmem
          rcases List.mem_append.mp hmem with hold | hnew
          · exact hbefore.2 reply? hold
          · exact hlast reply? (List.mem_singleton.mp hnew).symm
      · refine hothers other hmem ?_
        simpa [hevent, ← hnumber] using hne.symm
  | @gone _ job hmem hgone =>
      rcases mem_drop.mp hother with ⟨hother, hne⟩
      refine hothers other hother ?_
      simpa [hgone.number?] using hne.symm
  | still hnumber _ => exact hothers other hother (by simp [hnumber])

theorem present_snoc (h : Tracked service events f) {jobs : List Job} {next : Nat}
    (hmove : Move f event jobs next) {n : Nat} (hn : UnderWay (events ++ [event]) n) :
    ∃ job ∈ jobs, job.number = n := by
  cases hmove with
  | @enrolled now submission t htarget =>
      by_cases hself : f.nextNumber = n
      · exact ⟨f.enrolled now t, by simp, hself⟩
      · have hbefore := hn.of_snoc (by simp [Event.number?]) (by simp [Event.submission?, hself])
        rcases h.present n hbefore with ⟨job, hmem, hnumber⟩
        exact ⟨job, List.mem_append_left _ hmem, hnumber⟩
  | @forward _ old job hold hnumber hrouted hrunning hevent hstart hlast =>
      by_cases hself : old.number = n
      · exact ⟨job, (mem_replace hold hnumber.symm).mpr (.inl rfl), hnumber.trans hself⟩
      · have hbefore := hn.of_snoc (by simpa [hevent] using hself)
          (Event.submission?_of_number? hevent n)
        rcases h.present n hbefore with ⟨other, hmem, hother⟩
        have hne : other.number ≠ job.number := by
          rw [hother, hnumber]
          exact Ne.symm hself
        exact ⟨other, (mem_replace hold hnumber.symm).mpr (.inr ⟨hmem, hne⟩), hother⟩
  | @gone _ job hmem hgone =>
      by_cases hself : job.number = n
      · subst hself
        rcases hn with ⟨_, hended, hopen⟩
        -- an end would have been heard of, and so would a start before a time that is over
        rcases hgone with ⟨reply?, rfl⟩ | ⟨hphase, reply, rfl⟩
        · exact absurd (by simp) (hended reply?)
        · rcases hopen with hacquired | hwaits
          · have hold : .acquired job.number ∈ events := by simpa using hacquired
            exact absurd rfl ((h.known job hmem).waiting hphase _ hold)
          · exact absurd (by simp) (hwaits reply)
      · have hnumber := hgone.number?
        have hbefore := hn.of_snoc (by simpa [hnumber] using hself)
          (Event.submission?_of_number? hnumber n)
        rcases h.present n hbefore with ⟨other, hother, hn⟩
        exact ⟨other, mem_drop.mpr ⟨hother, hn ▸ Ne.symm hself⟩, hn⟩
  | still hnumber hsubmission =>
      exact h.present n (hn.of_snoc (by simp [hnumber]) (hsubmission n))

/-- What a step does to the jobs and to the store settles what is known of the requests. -/
theorem step (h : Tracked service events f) (hstep : Step f event f') :
    Tracked service (events ++ [event]) f' := by
  rcases hstep.change with ⟨hchange, hservice, hhandles⟩
  have hmove := hstep.move
  have hsetup : f'.service = { service with store := f'.service.store } := by
    rw [hservice, h.setup]
  exact
    { wellFormed := h.wellFormed.step hstep
      setup := hsetup
      handles := hhandles.trans h.handles
      fresh := fun n hn => h.fresh_snoc hmove hn
      known := h.known_snoc hmove hchange
      present := fun n hn => h.present_snoc hmove hn }

theorem run (hservice : service.store.WellFormed) (hrun : Run { service } events f) :
    Tracked service events f := by
  induction hrun with
  | nil => exact .start hservice
  | snoc _ hstep ih => exact ih.step hstep

/-- The requests under way are those that have a job. -/
theorem underWay_iff (h : Tracked service events f) :
    UnderWay events n ↔ ∃ job, f.job? n = some job := by
  constructor
  · intro hn
    rcases h.present n hn with ⟨job, hmem, rfl⟩
    exact ⟨job, h.wellFormed.job?_of_mem hmem⟩
  · rintro ⟨job, hjob⟩
    rcases mem_of_job? hjob with ⟨hmem, rfl⟩
    have hrequest := h.known job hmem
    rcases hrequest.assigned with ⟨submission, _, hsubmission, _⟩
    refine ⟨by simp [hsubmission], ?_⟩
    by_cases hphase : job.phase = .waiting
    · have hunheard := hrequest.waiting hphase
      refine ⟨?_, .inr ?_⟩
      · intro reply? hmem
        exact hunheard _ hmem rfl
      · intro reply hmem
        exact hunheard _ hmem rfl
    · rcases hrequest.running hphase with ⟨hacquired, hended⟩
      exact ⟨hended, .inl hacquired⟩

/-- The session of a request under way is behind its key, unless it has been removed. -/
theorem environmentAt (h : Tracked service events f) (hn : UnderWay events n)
    (hkey : keyOf service.catalogue events n = some k) (hkept : ¬ RemovedSince events n k) :
    ∃ e, f.environmentOf n = some e ∧ f.service.store.environmentAt k = some e := by
  rcases h.underWay_iff.mp hn with ⟨job, hjob⟩
  rcases mem_of_job? hjob with ⟨hmem, rfl⟩
  rcases (h.known job hmem).assigned with ⟨submission, t, hsubmission, htarget, hbehind⟩
  have hk : t.key = k := by
    simpa [keyOf, hsubmission, Catalogue.keyOf?, htarget] using hkey
  subst hk
  exact ⟨job.routed.environment, by simp [environmentOf, hjob], hbehind hkept⟩

/-- An environment is in use if a request under way refers to it. -/
theorem inUse_iff (h : Tracked service events f) :
    f.inUse e = true ↔ ∃ n, UnderWay events n ∧ f.environmentOf n = some e := by
  constructor
  · intro hused
    have hany : ∃ job ∈ f.jobs, job.routed.environment = e := by
      simpa [inUse, h.handles] using hused
    rcases hany with ⟨job, hmem, he⟩
    have hjob : f.job? job.number = some job := h.wellFormed.job?_of_mem hmem
    exact ⟨job.number, h.underWay_iff.mpr ⟨job, hjob⟩, by simp [environmentOf, hjob, he]⟩
  · rintro ⟨n, _, he⟩
    rcases hjob : f.job? n with _ | job
    · simp [environmentOf, hjob] at he
    · have hself : job.routed.environment = e := by simpa [environmentOf, hjob] using he
      exact hself ▸ inUse_of_mem (mem_of_job? hjob).1

end Tracked
end Flow
end CodeSessions
