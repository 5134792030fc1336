import CodeSessions.Proofs.Service.References

/-!
# Safekeeping — no session is swept away under a request

Sweeps decide by counted references, and every request under way has one.  So a sweep keeps the
session of a request from its lookup to the end of its evaluation, also after its client has been
told that the time is over; and what one of two overlapping requests binds the other one finds.

- `Counted.sessionAt_sweep_iff` says which sessions a sweep keeps,
- `Counted.Log` notes the effects that are taken on an environment, and `Log.bindings` what they add
  up to,
- `Counted.sessions_in_use_are_kept` is the statement about runs.
-/

namespace CodeSessions
namespace Flow

variable {service : Service} {events later : List Event} {event : Event} {f f' : Flow} {n : Nat}
  {k : Key} {e : EnvironmentId}

/-! ## Longer runs -/

theorem submissionOf_append {submission : Submission}
    (h : submissionOf events n = some submission) (later : List Event) :
    submissionOf (events ++ later) n = some submission := by
  simp only [submissionOf] at h
  simp [submissionOf, List.findSome?_append, h]

theorem keyOf_append {c : Catalogue} (h : keyOf c events n = some k) (later : List Event) :
    keyOf c (events ++ later) n = some k := by
  rcases hsubmission : submissionOf events n with _ | submission
  · simp [keyOf, hsubmission] at h
  · simpa only [keyOf, hsubmission, submissionOf_append hsubmission later] using h

theorem not_removedSince (h : ∀ interpreter id found, .removed interpreter id found ∉ events) :
    ¬ RemovedSince events n k := by
  rintro ⟨before, behind, interpreter, id, found, rfl, _, _, hmem⟩
  exact h interpreter id found (List.mem_append_right before hmem)

/-! ## Effects -/

/-- The effects that a step takes on an environment: one if a job takes it there, and else none. -/
def taken (f : Flow) (e : EnvironmentId) : Event → List Effect
  | .progressed n =>
      match f.job? n with
      | some job => if job.routed.environment = e then job.left.take 1 else []
      | none => []
  | _ => []

/-- Only effects change bindings. -/
theorem Change.bindings {store : Store} (hchange : Change f event store) (e : EnvironmentId) :
    store.bindings e = (f.taken e event).foldl Effect.onBindings (f.service.store.bindings e) := by
  cases hchange with
  | lookedUp _ => simp [taken]
  | @written n job effect left transcript fault hjob hphase =>
      by_cases hself : job.routed.environment = e
      · simp [taken, hjob, hself, Job.left, hphase]
      · simp [taken, hjob, hself]
  | removed interpreter id found => simp [taken]
  | swept now count => rfl
  | none _ hprogress =>
      cases event with
      | progressed n => exact absurd rfl (hprogress n)
      | _ => rfl

end Flow

namespace Counted

open CodeSessions.Flow

variable {service : Service} {events later : List Event} {event : Event} {c d : Counted} {n : Nat}
  {k : Key} {e : EnvironmentId} {effects : List Effect}

/-- A sweep keeps the sessions that requests under way refer to, and those that the retention rule
does not give up; and no others. -/
theorem sessionAt_sweep_iff (h : c.Exact) (htracked : Tracked service events c.flow)
    {session : Session} (hk : c.flow.service.store.sessionAt k = some session) (now : Instant) :
    (c.sweep now).1.sessionAt k = some session ↔
      (∃ n, UnderWay events n ∧ c.flow.environmentOf n = some session.environment) ∨
        service.retention session.toSessionInfo now = false := by
  have hretention := htracked.retention
  have hsweep := sweep_eq h htracked.wellFormed htracked.handles now
  rw [hsweep, Store.sessionAt_sweep htracked.wellFormed.store.toTidy, hk, ← htracked.inUse_iff]
  rcases hused : c.flow.inUse session.environment with _ | _ <;>
    simp [Option.filter, Store.isKept, hretention, hused]

/-- A sweep leaves the session of a request under way behind its key. -/
theorem environmentAt_sweep (h : c.Exact) (htracked : Tracked service events c.flow)
    (hn : UnderWay events n) (he : c.flow.environmentOf n = some e)
    (hk : c.flow.service.store.environmentAt k = some e) (now : Instant) :
    (c.sweep now).1.environmentAt k = some e := by
  have hused : c.flow.inUse e = true := htracked.inUse_iff.mpr ⟨n, hn, he⟩
  rw [sweep_eq h htracked.wellFormed htracked.handles now]
  refine (Store.environmentAt_congr ?_).trans hk
  exact sessionAt_sweep_of_inUse htracked.wellFormed.store.toTidy hk hused now

/-! ## Runs with their effects -/

/-- A run with the effects that were taken on an environment meanwhile. -/
inductive Log (e : EnvironmentId) (c : Counted) : List Event → List Effect → Counted → Prop
  | nil : Log e c [] [] c
  | snoc {events effects d event d'} : Log e c events effects d → Step d event d' →
      Log e c (events ++ [event]) (effects ++ d.flow.taken e event) d'

theorem Run.append (hrun : Run c events d) {later : List Event} {d' : Counted}
    (hlog : Log e d later effects d') : Run c (events ++ later) d' := by
  induction hlog with
  | nil => simpa using hrun
  | snoc _ hstep ih => simpa using ih.snoc hstep

theorem Step.bindings (hstep : Step c event d) (e : EnvironmentId) :
    d.flow.service.store.bindings e =
      (c.flow.taken e event).foldl Effect.onBindings (c.flow.service.store.bindings e) := by
  cases hstep with
  | sweep now => rfl
  | other _ hstep => exact hstep.change.1.bindings e

/-- Whatever happens, the bindings of an environment are those that the effects have left. -/
theorem Log.bindings (hlog : Log e c later effects d) :
    d.flow.service.store.bindings e =
      effects.foldl Effect.onBindings (c.flow.service.store.bindings e) := by
  induction hlog with
  | nil => rfl
  | snoc _ hstep ih => rw [hstep.bindings, ih, List.foldl_append]

/-- A step with counts moves the jobs as a step does. -/
theorem Step.move (hstep : Step c event d) : Move c.flow event d.flow.jobs d.flow.nextNumber := by
  cases hstep with
  | sweep now => exact .still rfl (fun _ => rfl)
  | other _ hstep => exact hstep.move

/-- A job that is there after a run, and whose number was given before it, was there before it. -/
theorem Log.job_before (hlog : Log e c later effects d) (hn : n < c.flow.nextNumber) :
    n < d.flow.nextNumber ∧ ∀ job ∈ d.flow.jobs, job.number = n →
      ∃ old ∈ c.flow.jobs, old.number = n ∧ old.routed = job.routed := by
  induction hlog with
  | nil =>
      refine ⟨hn, ?_⟩
      intro job hmem hnumber
      exact ⟨job, hmem, hnumber, rfl⟩
  | @snoc _ _ d _ d' _ hstep ih =>
      rcases ih with ⟨hlt, hold⟩
      refine ⟨Nat.lt_of_lt_of_le hlt hstep.move.le_next, ?_⟩
      intro job hmem hnumber
      rcases hstep.move.job_before hmem with ⟨before, hbefore, hsame, hrouted⟩ |
        ⟨_, _, t, _, _, rfl⟩
      · rcases hold before hbefore (hsame.trans hnumber) with ⟨old, hold, hnumber', hrouted'⟩
        exact ⟨old, hold, hnumber', hrouted'.trans hrouted⟩
      · -- a new job has a number of its own
        exact absurd hnumber (Nat.ne_of_gt hlt)

/-- A request keeps its environment for as long as it is under way. -/
theorem Log.environmentOf (hlog : Log e c later effects d) (hc : Tracked service events c.flow)
    (hd : Tracked service (events ++ later) d.flow) (hn : UnderWay events n)
    (hn' : UnderWay (events ++ later) n) : d.flow.environmentOf n = c.flow.environmentOf n := by
  rcases hc.underWay_iff.mp hn with ⟨first, hfirst⟩
  rcases mem_of_job? hfirst with ⟨hmem, hnumber⟩
  have hlt : n < c.flow.nextNumber := hnumber ▸ hc.wellFormed.below first hmem
  rcases hd.underWay_iff.mp hn' with ⟨job, hjob⟩
  rcases mem_of_job? hjob with ⟨hmem', hnumber'⟩
  rcases (hlog.job_before hlt).2 job hmem' hnumber' with ⟨old, hold, rfl, hrouted⟩
  simp only [Flow.environmentOf, hjob, hc.wellFormed.job?_of_mem hold, Option.map_some, hrouted]

/-! ## Whole runs -/

/-- Safekeeping.  A sweep keeps the session of every request under way; overlapping requests for one
session, if it is not removed, have one environment; and while one of them is under way everything
that is bound there stays bound, so that the others start from it. -/
theorem sessions_in_use_are_kept {service : Service} (hservice : service.store.Reachable)
    {events : List Event} {c : Counted} (hrun : Run (start service) events c) :
    (∀ k session now, c.flow.service.store.sessionAt k = some session →
      ((c.sweep now).1.sessionAt k = some session ↔
        (∃ n, UnderWay events n ∧ c.flow.environmentOf n = some session.environment) ∨
          service.retention session.toSessionInfo now = false)) ∧
    (∀ n k, UnderWay events n → keyOf service.catalogue events n = some k →
      ¬ RemovedSince events n k →
        c.flow.environmentOf n ≠ none ∧
          c.flow.environmentOf n = c.flow.service.store.environmentAt k ∧
          ∀ now, (c.sweep now).1.environmentAt k = c.flow.environmentOf n) ∧
    (∀ n m k, UnderWay events n → UnderWay events m → keyOf service.catalogue events n = some k →
      keyOf service.catalogue events m = some k → ¬ RemovedSince events n k →
      ¬ RemovedSince events m k → c.flow.environmentOf n = c.flow.environmentOf m) ∧
    (∀ n k e later effects d, UnderWay events n → keyOf service.catalogue events n = some k →
      c.flow.environmentOf n = some e → Log e c later effects d → UnderWay (events ++ later) n →
      ¬ RemovedSince (events ++ later) n k →
        d.flow.environmentOf n = some e ∧
        d.flow.service.store.bindingsAt k =
          effects.foldl Effect.onBindings (c.flow.service.store.bindingsAt k) ∧
        ∀ m job, d.flow.job? m = some job → keyOf service.catalogue (events ++ later) m = some k →
          ¬ RemovedSince (events ++ later) m k →
          d.flow.service.evaluation job.routed =
            job.routed.interpreter job.routed.body (d.flow.service.store.bindingsAt k)) := by
  rcases hrun.run hservice.wellFormed with ⟨hflow, hexact⟩
  have htracked : Tracked service events c.flow := .run hservice.wellFormed hflow
  refine ⟨?_, ?_, ?_, ?_⟩
  · intro k session now hk
    exact sessionAt_sweep_iff hexact htracked hk now
  · intro n k hn hkey hkept
    rcases htracked.environmentAt hn hkey hkept with ⟨e, he, hk⟩
    refine ⟨by simp [he], he.trans hk.symm, ?_⟩
    intro now
    exact (environmentAt_sweep hexact htracked hn he hk now).trans he.symm
  · intro n m k hn hm hkeyN hkeyM hkeptN hkeptM
    rcases htracked.environmentAt hn hkeyN hkeptN with ⟨e, he, hk⟩
    rcases htracked.environmentAt hm hkeyM hkeptM with ⟨e', he', hk'⟩
    rw [he, he', ← hk, hk']
  · intro n k e later effects d hn hkey he hlog hn' hkept
    have htracked' : Tracked service (events ++ later) d.flow :=
      .run hservice.wellFormed ((hrun.append hlog).run hservice.wellFormed).1
    have hbefore : c.flow.service.store.environmentAt k = some e := by
      rcases htracked.environmentAt hn hkey (fun h => hkept (h.append later)) with ⟨e', he', hk⟩
      rw [hk, ← he', he]
    have he' : d.flow.environmentOf n = some e :=
      (hlog.environmentOf htracked htracked' hn hn').trans he
    have hafter : d.flow.service.store.environmentAt k = some e := by
      rcases htracked'.environmentAt hn' (keyOf_append hkey later) hkept with ⟨e'', he'', hk⟩
      rw [hk, ← he'', he']
    refine ⟨he', ?_, ?_⟩
    · simp only [Store.bindingsAt, hbefore, hafter, hlog.bindings]
    · intro m job hjob hkeyM hkeptM
      have hm : UnderWay (events ++ later) m := htracked'.underWay_iff.mpr ⟨job, hjob⟩
      rcases htracked'.environmentAt hm hkeyM hkeptM with ⟨e'', he'', hk⟩
      have hself : job.routed.environment = e'' := by simpa [environmentOf, hjob] using he''
      simp only [Service.evaluation, Store.bindingsAt, hk, hself]

/-- One request runs without a client, another waits behind it, and a sweep that gives every session
up finds both; then the first one binds a name. -/
theorem sessions_in_use_are_kept_without_client :
    let interpreter : Interpreter := fun body _ => ⟨[.bind body (.bool true)], none⟩
    let service : Service :=
      { catalogue := Catalogue.empty.register ["m"] interpreter
        retention := fun _ _ => true
        timeLimit := some 5 }
    let events : List Event :=
      [.submitted 0 0 ⟨"%m x", some "1"⟩, .submitted 1 2 ⟨"%m y", some "1"⟩, .acquired 0,
        .timedOut 0 (Reply.ofOutcome .normalized (.error (.timedOut 5))), .swept 9 0]
    let k : Key := .session "m" "1"
    service.store.Reachable ∧ UnderWay (events ++ [.progressed 0]) 0 ∧ UnderWay events 1 ∧
      ∃ c d, Run (start service) events c ∧ Log 1 c [.progressed 0] [.bind "x" (.bool true)] d ∧
        c.flow.environmentOf 0 = c.flow.environmentOf 1 ∧
        (∀ now, (c.sweep now).1.environmentAt k = c.flow.environmentOf 0) ∧
        d.flow.service.store.bindingsAt k =
          (Effect.bind "x" (.bool true)).onBindings (c.flow.service.store.bindingsAt k) := by
  intro interpreter service events k
  have hservice : service.store.Reachable := ⟨[], rfl⟩
  have hfirst : UnderWay events 0 :=
    ⟨by simp [events, submissionOf, Event.submission?], by simp [events], .inl (by simp [events])⟩
  have hsecond : UnderWay events 1 :=
    ⟨by simp [events, submissionOf, Event.submission?], by simp [events], .inr (by simp [events])⟩
  have hstill : UnderWay (events ++ [.progressed 0]) 0 :=
    ⟨by simp [events, submissionOf, Event.submission?], by simp [events], .inl (by simp [events])⟩
  have hkey₀ : keyOf service.catalogue events 0 = some k := by rfl
  have hkey₁ : keyOf service.catalogue events 1 = some k := by rfl
  have hkept : ∀ n, ¬ RemovedSince events n k := fun n => not_removedSince (by simp [events])
  have hkept' : ¬ RemovedSince (events ++ [.progressed 0]) 0 k :=
    not_removedSince (by simp [events])
  have hrun : ∃ c d, Run (start service) events c ∧ c.flow.environmentOf 0 = some 1 ∧
      Log 1 c [.progressed 0] [.bind "x" (.bool true)] d :=
    ⟨_, _, .snoc (.snoc (.snoc (.snoc (.snoc .nil (.other (by simp) (.submit rfl)))
      (.other (by simp) (.submit rfl))) (.other (by simp) (.start rfl)))
      (.other (by simp) (.timeOut rfl))) (.sweep 9), rfl,
      .snoc .nil (.other (by simp) (.advance rfl))⟩
  rcases hrun with ⟨c, d, hrun, henvironment, hlog⟩
  have hsafe := sessions_in_use_are_kept hservice hrun
  refine ⟨hservice, hstill, hsecond, c, d, hrun, hlog, ?_, ?_, ?_⟩
  · exact hsafe.2.2.1 0 1 k hfirst hsecond hkey₀ hkey₁ (hkept 0) (hkept 1)
  · exact (hsafe.2.1 0 k hfirst hkey₀ (hkept 0)).2.2
  · exact (hsafe.2.2.2 0 k 1 _ _ d hfirst hkey₀ henvironment hlog hstill hkept').2.1

end Counted
end CodeSessions
