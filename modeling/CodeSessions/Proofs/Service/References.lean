import CodeSessions.Proofs.Service.Requests
import CodeSessions.Proofs.Store.Holdings

/-!
# References — the count that tells a sweep what is in use

Whoever holds an environment holds a counted reference to it: the store for its own sake, and every
request from its lookup on.  A request hands its reference over, from the lookup to the wait for the
environment and from there to the evaluation, and lets it go when the evaluation ends or is given
up, whether or not its client still listens.  A sweep looks at the count alone: a session is in use
if there is a reference besides that of the store.

- `References` are the counts; `Counted` is a flow with them,
- `Counted.Step` are the steps, in which sweeps ask the counts, and `Counted.Run` the runs,
- `Counted.Exact` says that the counts are those of the references that there are; with
  `Exact.step` a sweep that asks the counts is one that looks at the jobs,
- `Counted.Run.run`: a run with counts is a run, and `exists_counted` that there are no others.
-/

namespace CodeSessions

/-! ## Counts -/

/-- How many references there are to each environment. -/
abbrev References := EnvironmentId → Nat

namespace References

/-- A new environment is referred to once, by whoever makes it. -/
def make (r : References) (e : EnvironmentId) : References := fun other =>
  if other = e then 1 else r other

def clone (r : References) (e : EnvironmentId) : References := fun other =>
  if other = e then r other + 1 else r other

def drop (r : References) (e : EnvironmentId) : References := fun other =>
  if other = e then r other - 1 else r other

/-- A lookup gives a reference to the environment behind the key; that of a new environment is a
second one, besides the one that the store keeps. -/
def lookedUp (r : References) (s : Store) (k : Key) : References :=
  match s.environmentAt k with
  | some e => r.clone e
  | none => (r.make s.nextEnvironment).clone s.nextEnvironment

/-- If nobody refers to the next environment, a lookup adds the reference that it gives away and
that of the store to a new environment. -/
theorem lookedUp_apply {r : References} {s : Store} (hnext : r s.nextEnvironment = 0) (k : Key)
    (e : EnvironmentId) :
    r.lookedUp s k e =
      r e + (if (s.environmentAt k).isNone ∧ s.nextEnvironment = e then 1 else 0) +
        if (s.environmentAt k).getD s.nextEnvironment = e then 1 else 0 := by
  rcases hk : s.environmentAt k with _ | found
  · by_cases hself : s.nextEnvironment = e
    · simp [lookedUp, hk, clone, make, ← hself, hnext]
    · simp [lookedUp, hk, clone, make, hself, Ne.symm hself]
  · by_cases hself : found = e
    · simp [lookedUp, hk, clone, hself]
    · simp [lookedUp, hk, clone, hself, Ne.symm hself]

theorem foldl_drop (environments : List EnvironmentId) (r : References) (e : EnvironmentId) :
    environments.foldl drop r e = r e - environments.count e := by
  induction environments generalizing r with
  | nil => rfl
  | cons other environments ih =>
      by_cases hself : e = other
      · subst hself
        simp [ih, drop]
        omega
      · have hne : ¬ other = e := fun h => hself h.symm
        simp [ih, drop, hself, hne]

end References

/-! ## Flows with counts -/

/-- The environments that jobs refer to, one entry for each job. -/
def Flow.environments (f : Flow) : List EnvironmentId :=
  f.jobs.map fun job => job.routed.environment

/-- A flow with the number of references to each environment. -/
structure Counted where
  flow : Flow
  references : References

namespace Counted

open CodeSessions.Flow

/-- Whether there is a reference besides that of the store. -/
def inUse (c : Counted) (e : EnvironmentId) : Bool :=
  decide (1 < c.references e)

/-- A service before its first request: only the store refers to anything. -/
def start (service : Service) : Counted :=
  ⟨{ service }, fun e => service.store.holdings.count e⟩

/-- The sessions that a sweep drops. -/
def dropped (c : Counted) (now : Instant) : List Session :=
  c.flow.service.store.allSessions.filter fun session =>
    !Store.isKept c.inUse c.flow.service.retention now session

/-- The counts after a step. -/
def recount (c : Counted) : Event → References
  | .submitted _ _ submission =>
      match c.flow.service.catalogue.target? submission with
      | some t => c.references.lookedUp c.flow.service.store t.key
      | none => c.references
  | .ended n _ =>
      match c.flow.job? n with
      | some job => c.references.drop job.routed.environment
      | none => c.references
  | .timedOut n _ =>
      match c.flow.job? n with
      | some job =>
          match job.phase with
          | .waiting => c.references.drop job.routed.environment
          -- the evaluation goes on and has the reference
          | .running _ _ _ => c.references
      | none => c.references
  | .removed interpreter id _ =>
      match c.flow.service.store.find? interpreter id with
      | some session => c.references.drop session.environment
      | none => c.references
  | .swept now _ => (c.dropped now).foldl (fun r session => r.drop session.environment) c.references
  -- the reference goes from one hand to the next
  | .refused _ _ _ | .acquired _ | .progressed _ => c.references

/-- A sweep that asks the counts. -/
def sweep (c : Counted) (now : Instant) : Store × Nat :=
  c.flow.service.store.sweep c.inUse c.flow.service.retention now

inductive Step (c : Counted) : Event → Counted → Prop
  | sweep (now : Instant) :
      Step c (.swept now (c.sweep now).2)
        ⟨{ c.flow with service := { c.flow.service with store := (c.sweep now).1 } },
          c.recount (.swept now (c.sweep now).2)⟩
  | other {event f'} (hevent : ∀ now count, event ≠ .swept now count)
      (hstep : Flow.Step c.flow event f') : Step c event ⟨f', c.recount event⟩

inductive Run (c : Counted) : List Event → Counted → Prop
  | nil : Run c [] c
  | snoc {events d event d'} : Run c events d → Step d event d' → Run c (events ++ [event]) d'

/-! ## References of jobs -/

theorem environments_replace {f : Flow} {old job : Job} (h : (f.jobs.map Job.number).Nodup)
    (hold : old ∈ f.jobs) (hnumber : job.number = old.number) (hrouted : job.routed = old.routed) :
    (f.replace job).environments = f.environments := by
  simp only [environments, replace, List.map_map]
  refine List.map_congr_left ?_
  intro other hmem
  by_cases hself : other.number = job.number
  · have hother : other = old := List.inj_on_of_nodup_map h hmem hold (hself.trans hnumber)
    simp [hother, hnumber, hrouted]
  · simp [hself]

theorem count_environments_drop {f : Flow} {job : Job} (h : f.WellFormed) (hmem : job ∈ f.jobs)
    (e : EnvironmentId) :
    (f.drop job.number).environments.count e + (if job.routed.environment = e then 1 else 0) =
      f.environments.count e := by
  have hcount := countP_filter_key_ne h.numbers hmem fun other => other.routed.environment == e
  simp only [beq_iff_eq] at hcount
  simp only [environments, drop, List.count, List.countP_map]
  exact hcount

/-! ## The counts are exact -/

/-- Every reference is counted: those of the store, and one for each job. -/
def Exact (c : Counted) : Prop :=
  ∀ e, c.references e = c.flow.service.store.holdings.count e + c.flow.environments.count e

variable {service : Service} {events : List Event} {event : Event} {c c' : Counted} {f' : Flow}

theorem exact_start (service : Service) : (start service).Exact := by
  intro e
  simp [start, environments]

/-- A session is in use if a job refers to its environment. -/
theorem inUse_eq (h : c.Exact) (hwf : c.flow.WellFormed) (hhandles : c.flow.handles = [])
    {e : EnvironmentId} (he : e ∈ c.flow.service.store.holdings) : c.inUse e = c.flow.inUse e := by
  have hcounted : 1 < c.references e ↔ e ∈ c.flow.environments := by
    rw [h e, Store.one_lt_count_iff hwf.store he]
  have hjobs : e ∈ c.flow.environments ↔ c.flow.inUse e = true := by
    simp [environments, Flow.inUse, hhandles]
  have hiff : c.inUse e = true ↔ c.flow.inUse e = true := by
    simpa only [inUse, decide_eq_true_eq] using hcounted.trans hjobs
  exact Bool.eq_iff_iff.mpr hiff

/-- A sweep that asks the counts is a sweep that looks at the jobs. -/
theorem sweep_eq (h : c.Exact) (hwf : c.flow.WellFormed) (hhandles : c.flow.handles = [])
    (now : Instant) :
    c.sweep now = c.flow.service.store.sweep c.flow.inUse c.flow.service.retention now := by
  refine Store.sweep_congr ?_ c.flow.service.retention now
  intro session hmem
  exact inUse_eq h hwf hhandles (List.mem_cons_of_mem _ (List.mem_map_of_mem hmem))

/-- Nobody refers to an environment that has not been made. -/
theorem references_next (h : c.Exact) (hwf : c.flow.WellFormed) :
    c.references c.flow.service.store.nextEnvironment = 0 := by
  have hunheld : c.flow.service.store.holdings.count c.flow.service.store.nextEnvironment = 0 := by
    refine List.count_eq_zero.mpr ?_
    intro hmem
    exact Nat.lt_irrefl _ (Store.lt_of_mem_holdings hwf.store hmem)
  have hunused : c.flow.environments.count c.flow.service.store.nextEnvironment = 0 := by
    refine List.count_eq_zero.mpr ?_
    intro hmem
    rcases List.mem_map.mp hmem with ⟨job, hjob, he⟩
    exact Nat.lt_irrefl _ (he ▸ hwf.placed job hjob)
  rw [h, hunheld, hunused]

/-- The reference that a lookup gives is that of the new job. -/
theorem Exact.submit (h : c.Exact) (hwf : c.flow.WellFormed) {now : Instant}
    {submission : Submission} {n : Nat} (hsubmit : c.flow.submit now submission = (f', .ok n)) :
    Exact ⟨f', c.recount (.submitted n now submission)⟩ := by
  rcases submit_ok hsubmit with ⟨t, htarget, _, rfl⟩
  intro e
  have hlookedUp := References.lookedUp_apply (references_next h hwf) (.ofCell t.name t.session) e
  have hholdings := Store.count_holdings_lookup c.flow.service.store now t.name t.session e
  have hfound := Store.lookup_environment c.flow.service.store now t.name t.session
  have hjobs : (c.flow.jobs ++ [c.flow.enrolled now t]).map (fun job => job.routed.environment) =
      c.flow.environments ++ [(c.flow.service.store.lookup now t.name t.session).2] := by
    simp [environments, enrolled]
  simp only [← hfound] at hlookedUp
  simp only [recount, htarget, Target.key, hlookedUp, h e, hholdings, environments, hjobs,
    List.count_append, List.count_singleton, beq_iff_eq]
  omega

/-- A job that goes lets its reference go. -/
theorem Exact.gone (h : c.Exact) (hwf : c.flow.WellFormed) {job : Job} (hmem : job ∈ c.flow.jobs) :
    Exact ⟨c.flow.drop job.number, c.references.drop job.routed.environment⟩ := by
  intro e
  have hcount := h e
  have hjobs := count_environments_drop hwf hmem e
  have hstore : (c.flow.drop job.number).service = c.flow.service := rfl
  by_cases hself : job.routed.environment = e
  · simp only [hself, if_true] at hjobs
    simp only [References.drop, hself, if_true, hstore]
    omega
  · simp only [hself, if_false] at hjobs
    simp only [References.drop, Ne.symm hself, if_false, hstore]
    omega

/-- A job that goes on keeps its reference. -/
theorem Exact.forward (h : c.Exact) (hjobs : f'.environments = c.flow.environments)
    (hstore : f'.service.store.holdings = c.flow.service.store.holdings) :
    Exact ⟨f', c.references⟩ := by
  intro e
  simp only [hjobs, hstore]
  exact h e

/-- The store lets the reference to the environment of a removed session go. -/
theorem Exact.remove (h : c.Exact) (hwf : c.flow.WellFormed) (interpreter id : String) :
    Exact ⟨(c.flow.remove interpreter id).1,
      c.recount (.removed interpreter id (c.flow.remove interpreter id).2)⟩ := by
  intro e
  have hcount := h e
  rcases hfind : c.flow.service.store.find? interpreter id with _ | session
  · simpa only [recount, hfind, Flow.remove, Store.remove] using hcount
  · have hholdings := Store.count_holdings_remove hwf.store.toTidy hfind e
    simp only [recount, hfind, References.drop]
    by_cases hself : session.environment = e
    · simp only [hself, if_true] at hholdings ⊢
      simp only [Flow.remove, environments] at hcount ⊢
      omega
    · simp only [hself, if_false] at hholdings
      simp only [Ne.symm hself, if_false]
      simp only [Flow.remove, environments] at hcount ⊢
      omega

/-- The store lets the references to the environments of the sessions that a sweep drops go. -/
theorem Exact.sweep (h : c.Exact) (now : Instant) (count : Nat) :
    Exact ⟨{ c.flow with service := { c.flow.service with store := (c.sweep now).1 } },
      c.recount (.swept now count)⟩ := by
  intro e
  have hcount := h e
  have hholdings := Store.count_holdings_sweep c.flow.service.store c.inUse
    c.flow.service.retention now e
  have hdropped := References.foldl_drop ((c.dropped now).map Session.environment) c.references e
  simp only [List.foldl_map] at hdropped
  have hrecount : c.recount (.swept now count) e =
      c.references e - ((c.dropped now).map Session.environment).count e := hdropped
  simp only [hrecount, environments, Counted.sweep, dropped] at hcount ⊢
  omega

/-- Other steps leave all references where they are, or drop sessions. -/
theorem Exact.step (h : c.Exact) (hwf : c.flow.WellFormed)
    (hstep : Flow.Step c.flow event f') (hevent : ∀ now count, event ≠ .swept now count) :
    Exact ⟨f', c.recount event⟩ := by
  cases hstep with
  | submit hsubmit => exact h.submit hwf hsubmit
  | refuse hsubmit =>
      rw [submit_error hsubmit]
      exact h
  | start hstart =>
      rcases start?_eq_some hstart with ⟨job, hjob, _, _, rfl⟩
      exact h.forward (environments_replace hwf.numbers (mem_of_job? hjob).1 rfl rfl) rfl
  | advance hadvance =>
      rcases advance?_eq_some hadvance with ⟨job, _, _, _, _, hjob, _, rfl⟩
      exact h.forward (environments_replace hwf.numbers (mem_of_job? hjob).1 rfl rfl) rfl
  | finish hfinish =>
      rcases finish?_eq_some hfinish with ⟨job, _, _, hjob, _, rfl, _⟩
      rcases mem_of_job? hjob with ⟨hmem, rfl⟩
      simpa only [recount, hjob] using h.gone hwf hmem
  | timeOut htimeOut =>
      rcases timeOut?_eq_some htimeOut with ⟨job, hjob, _, ⟨hphase, rfl⟩ | ⟨hphase, rfl⟩⟩
      · rcases mem_of_job? hjob with ⟨hmem, rfl⟩
        simpa only [recount, hjob, hphase] using h.gone hwf hmem
      · rcases hrunning : job.phase with _ | ⟨left, transcript, fault⟩
        · exact absurd hrunning hphase
        · simp only [recount, hjob, hrunning]
          exact h.forward (environments_replace hwf.numbers (mem_of_job? hjob).1 rfl rfl) rfl
  | remove interpreter id => exact h.remove hwf interpreter id
  | sweep now => exact absurd rfl (hevent now _)

/-! ## Runs -/

/-- Counting changes nothing: a step with counts is a step, and the counts stay exact. -/
theorem Step.flow_step (h : c.Exact) (htracked : Tracked service events c.flow)
    (hstep : Step c event c') : Flow.Step c.flow event c'.flow ∧ c'.Exact := by
  cases hstep with
  | sweep now =>
      refine ⟨?_, h.sweep now _⟩
      have hsweep := sweep_eq h htracked.wellFormed htracked.handles now
      rw [hsweep]
      exact Flow.Step.sweep now
  | other hevent hstep => exact ⟨hstep, h.step htracked.wellFormed hstep hevent⟩

theorem Run.run (hservice : service.store.WellFormed) (hrun : Run (start service) events c) :
    Flow.Run { service } events c.flow ∧ c.Exact := by
  induction hrun with
  | nil => exact ⟨.nil, exact_start service⟩
  | snoc _ hstep ih =>
      rcases ih with ⟨hflow, hexact⟩
      rcases hstep.flow_step hexact (.run hservice hflow) with ⟨hstep', hexact'⟩
      exact ⟨.snoc hflow hstep', hexact'⟩

/-- Every run of a flow is the run of a flow with counts. -/
theorem exists_counted (hservice : service.store.WellFormed) {f : Flow}
    (hrun : Flow.Run { service } events f) :
    ∃ references, Run (start service) events ⟨f, references⟩ := by
  induction hrun with
  | nil => exact ⟨_, .nil⟩
  | @snoc events g event g' _ hstep ih =>
      rcases ih with ⟨references, hcounted⟩
      rcases hcounted.run hservice with ⟨hflow, hexact⟩
      have htracked : Tracked service events g := .run hservice hflow
      by_cases hevent : ∀ now count, event ≠ .swept now count
      · exact ⟨_, .snoc hcounted (.other hevent hstep)⟩
      · simp only [Classical.not_forall, Classical.not_not] at hevent
        rcases hevent with ⟨now, count, rfl⟩
        cases hstep with
        | sweep now =>
            -- the sweep that asks the counts comes to the same
            have hsweep := Run.snoc hcounted (.sweep now)
            simp only [sweep_eq hexact htracked.wellFormed htracked.handles] at hsweep
            exact ⟨_, hsweep⟩

end Counted
end CodeSessions
