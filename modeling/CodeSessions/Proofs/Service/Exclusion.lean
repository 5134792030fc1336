import CodeSessions.Proofs.Service.Schedule
import Mathlib.Data.List.Nodup

/-!
# Exclusion — one evaluation on an environment at a time

The invariant of flows.  Jobs have numbers of their own, every job refers to an environment that has
been made, and no two jobs run on one environment, also after the clients of both have been told
that their time is over.

- `Flow.WellFormed` is the invariant, `WellFormed.step` the step and `WellFormed.run` the run,
- `Flow.effectsOn` are the effects that are still to be taken on an environment: by exclusion those
  of one job,
- `Flow.settledAt` are the bindings that a key will have when the evaluations under way are done.
-/

namespace CodeSessions

namespace Job

/-- The effects that a job has begun to take and not yet taken. -/
def left (job : Job) : List Effect :=
  match job.phase with
  | .waiting => []
  | .running left _ _ => left

/-- The effects that a job is about to take on an environment. -/
def effectsOn (e : EnvironmentId) (job : Job) : List Effect :=
  if job.isRunningOn e then job.left else []

theorem isRunningOn_iff {job : Job} {e : EnvironmentId} :
    job.isRunningOn e = true ↔ job.phase ≠ .waiting ∧ job.routed.environment = e := by
  rcases hphase : job.phase with _ | ⟨left, transcript, fault⟩
  · simp [isRunningOn, hphase]
  · simp [isRunningOn, hphase]

theorem effectsOn_of_waiting {job : Job} (h : job.phase = .waiting) (e : EnvironmentId) :
    job.effectsOn e = [] := by
  simp [effectsOn, isRunningOn, h]

theorem effectsOn_of_ne {job : Job} {e : EnvironmentId} (h : job.routed.environment ≠ e) :
    job.effectsOn e = [] := by
  have hnot : ¬ job.isRunningOn e = true := fun hrun => h (isRunningOn_iff.mp hrun).2
  simp [effectsOn, hnot]

end Job

namespace Flow

structure WellFormed (f : Flow) : Prop where
  store : f.service.store.WellFormed
  numbers : (f.jobs.map Job.number).Nodup
  below : ∀ job ∈ f.jobs, job.number < f.nextNumber
  placed : ∀ job ∈ f.jobs, job.routed.environment < f.service.store.nextEnvironment
  /-- Two jobs that run on one environment are one job. -/
  exclusive : ∀ e, ∀ a ∈ f.jobs, ∀ b ∈ f.jobs,
    a.isRunningOn e = true → b.isRunningOn e = true → a = b
  /-- A client that has had a reply does not wait for a job to start. -/
  unanswered : ∀ job ∈ f.jobs, job.phase = .waiting → job.answered = false

namespace WellFormed

variable {f f' : Flow} {job : Job} {n : Nat}

/-- A flow without jobs. -/
theorem idle {service : Service} (h : service.store.WellFormed) :
    ({ service } : Flow).WellFormed where
  store := h
  numbers := List.nodup_nil
  below := by simp
  placed := by simp
  exclusive := by simp
  unanswered := by simp

theorem eq_of_number (h : f.WellFormed) {a b : Job} (ha : a ∈ f.jobs) (hb : b ∈ f.jobs)
    (hnumber : a.number = b.number) : a = b :=
  List.inj_on_of_nodup_map h.numbers ha hb hnumber

theorem job?_of_mem (h : f.WellFormed) (hmem : job ∈ f.jobs) :
    f.job? job.number = some job := by
  have hsome : (f.job? job.number).isSome = true := List.find?_isSome.mpr ⟨job, hmem, by simp⟩
  rcases Option.isSome_iff_exists.mp hsome with ⟨found, hfound⟩
  rcases mem_of_job? hfound with ⟨hmem', hnumber⟩
  exact hfound.trans (congrArg some (h.eq_of_number hmem' hmem hnumber))

/-- Numbers that have not been given are nobody's. -/
theorem number_ne (h : f.WellFormed) (hmem : job ∈ f.jobs) (hn : f.nextNumber ≤ n) :
    job.number ≠ n := by
  apply Nat.ne_of_lt
  calc
    job.number < f.nextNumber := h.below job hmem
    _ ≤ n := hn

/-- Another store, in which no environment is taken back. -/
theorem withStore (h : f.WellFormed) {store : Store} (hstore : store.WellFormed)
    (hnext : f.service.store.nextEnvironment ≤ store.nextEnvironment) :
    ({ f with service := { f.service with store } } : Flow).WellFormed where
  store := hstore
  numbers := h.numbers
  below := h.below
  placed := by
    intro job hmem
    calc
      job.routed.environment < f.service.store.nextEnvironment := h.placed job hmem
      _ ≤ store.nextEnvironment := hnext
  exclusive := h.exclusive
  unanswered := h.unanswered

/-- A new job that waits runs on nothing. -/
theorem enrol (h : f.WellFormed) (job : Job) (hnumber : job.number = f.nextNumber)
    (hphase : job.phase = .waiting) (hanswered : job.answered = false)
    (hplaced : job.routed.environment < f.service.store.nextEnvironment) :
    ({ f with jobs := f.jobs ++ [job], nextNumber := f.nextNumber + 1 } : Flow).WellFormed where
  store := h.store
  numbers := by
    have hfresh : job.number ∉ f.jobs.map Job.number := by
      intro hmem
      rcases List.mem_map.mp hmem with ⟨other, hother, heq⟩
      exact h.number_ne hother (Nat.le_refl _) (heq.trans hnumber)
    simpa [List.nodup_append, h.numbers] using hfresh
  below := by
    -- the new job has the number that was the next one
    intro other hmem
    rcases List.mem_append.mp hmem with hold | hnew
    · exact Nat.lt_succ_of_lt (h.below other hold)
    · simp [List.mem_singleton.mp hnew, hnumber]
  placed := by
    intro other hmem
    rcases List.mem_append.mp hmem with hold | hnew
    · exact h.placed other hold
    · simpa only [List.mem_singleton.mp hnew] using hplaced
  exclusive := by
    -- a job that waits does not run anywhere
    have hidle : ∀ e, job.isRunningOn e = false := by
      intro e
      simp [Job.isRunningOn, hphase]
    intro e a ha b hb hrunA hrunB
    rcases List.mem_append.mp ha with holdA | hnewA
    · rcases List.mem_append.mp hb with holdB | hnewB
      · exact h.exclusive e a holdA b holdB hrunA hrunB
      · simp [List.mem_singleton.mp hnewB, hidle] at hrunB
    · simp [List.mem_singleton.mp hnewA, hidle] at hrunA
  unanswered := by
    intro other hmem hwaiting
    rcases List.mem_append.mp hmem with hold | hnew
    · exact h.unanswered other hold hwaiting
    · simpa only [List.mem_singleton.mp hnew] using hanswered

/-- A job may go on as it likes on its environment if no other job runs there. -/
theorem replace (h : f.WellFormed) {old : Job} (hold : old ∈ f.jobs)
    (hnumber : job.number = old.number) (hrouted : job.routed = old.routed)
    (halone : ∀ other ∈ f.jobs, other.number ≠ old.number →
      other.isRunningOn old.routed.environment = false)
    (hanswered : job.phase = .waiting → job.answered = false) : (f.replace job).WellFormed where
  store := h.store
  numbers := by
    have hsame : (f.replace job).jobs.map Job.number = f.jobs.map Job.number := by
      simp only [Flow.replace, List.map_map]
      refine List.map_congr_left ?_
      intro other _
      by_cases hother : other.number = job.number <;> simp [hother]
    simpa only [hsame] using h.numbers
  below := by
    intro other hmem
    rcases (mem_replace hold hnumber.symm).mp hmem with rfl | ⟨hmem, _⟩
    · have hlt := h.below old hold
      simpa only [hnumber, Flow.replace] using hlt
    · exact h.below other hmem
  placed := by
    intro other hmem
    rcases (mem_replace hold hnumber.symm).mp hmem with rfl | ⟨hmem, _⟩
    · have hlt := h.placed old hold
      simpa only [hrouted, Flow.replace] using hlt
    · exact h.placed other hmem
  exclusive := by
    -- the new job runs on the environment of the old one, if at all, and there it is alone
    have hothers : ∀ e, ∀ other ∈ f.jobs, other.number ≠ job.number →
        job.isRunningOn e = true → other.isRunningOn e = true → False := by
      intro e other hmem hne hrun hrunOther
      have he : old.routed.environment = e := by
        simpa only [hrouted] using (Job.isRunningOn_iff.mp hrun).2
      have hidle := halone other hmem (hnumber ▸ hne)
      simp [he, hrunOther] at hidle
    intro e a ha b hb hrunA hrunB
    rcases (mem_replace hold hnumber.symm).mp ha with hselfA | ⟨hmemA, hneA⟩
    · rcases (mem_replace hold hnumber.symm).mp hb with hselfB | ⟨hmemB, hneB⟩
      · exact hselfA.trans hselfB.symm
      · exact (hothers e b hmemB hneB (hselfA ▸ hrunA) hrunB).elim
    · rcases (mem_replace hold hnumber.symm).mp hb with hselfB | ⟨hmemB, hneB⟩
      · exact (hothers e a hmemA hneA (hselfB ▸ hrunB) hrunA).elim
      · exact h.exclusive e a hmemA b hmemB hrunA hrunB
  unanswered := by
    intro other hmem hwaiting
    rcases (mem_replace hold hnumber.symm).mp hmem with rfl | ⟨hmem, _⟩
    · exact hanswered hwaiting
    · exact h.unanswered other hmem hwaiting

theorem drop (h : f.WellFormed) (n : Nat) : (f.drop n).WellFormed where
  store := h.store
  numbers := h.numbers.sublist (List.filter_sublist.map _)
  below := fun job hmem => h.below job (mem_drop.mp hmem).1
  placed := fun job hmem => h.placed job (mem_drop.mp hmem).1
  exclusive := fun e a ha b hb => h.exclusive e a (mem_drop.mp ha).1 b (mem_drop.mp hb).1
  unanswered := fun job hmem => h.unanswered job (mem_drop.mp hmem).1

/-- A running job is alone on its environment. -/
theorem alone (h : f.WellFormed) (hmem : job ∈ f.jobs) (hphase : job.phase ≠ .waiting) :
    ∀ other ∈ f.jobs, other.number ≠ job.number →
      other.isRunningOn job.routed.environment = false := by
  intro other hother hne
  have hrun : job.isRunningOn job.routed.environment = true :=
    Job.isRunningOn_iff.mpr ⟨hphase, rfl⟩
  by_cases hrunOther : other.isRunningOn job.routed.environment = true
  · have hself := h.exclusive _ other hother job hmem hrunOther hrun
    exact absurd (congrArg Job.number hself) hne
  · simpa using hrunOther

theorem of_isLocked {e : EnvironmentId} (h : f.isLocked e = false) (other : Job)
    (hmem : other ∈ f.jobs) : other.isRunningOn e = false := by
  simpa using List.any_eq_false.mp h other hmem

end WellFormed

/-- Every step keeps a flow well-formed, removals and sweeps included. -/
theorem WellFormed.step {f f' : Flow} {event : Event} (h : f.WellFormed)
    (hstep : Step f event f') : f'.WellFormed := by
  cases hstep with
  | @submit now submission n f' hsubmit =>
      rcases submit_ok hsubmit with ⟨t, _, _, rfl⟩
      have hlookup := h.store.lookup now t.name t.session
      have hmade : (f.service.store.lookup now t.name t.session).2 <
          (f.service.store.lookup now t.name t.session).1.nextEnvironment :=
        hlookup.made (Store.environmentAt_lookup_self f.service.store now t.name t.session)
      have hgrows : f.service.store.nextEnvironment ≤
          (f.service.store.lookup now t.name t.session).1.nextEnvironment :=
        Store.nextEnvironment_le_lookup f.service.store now t.name t.session
      exact (h.withStore hlookup hgrows).enrol (f.enrolled now t) rfl rfl rfl hmade
  | refuse hsubmit =>
      simpa only [submit_error hsubmit] using h
  | start hstart =>
      rcases start?_eq_some hstart with ⟨job, hjob, _, hfree, rfl⟩
      refine h.replace (mem_of_job? hjob).1 rfl rfl ?_ (fun hwaiting => by cases hwaiting)
      -- the start is the only step that needs to look: the environment is free
      intro other hmem _
      exact of_isLocked hfree other hmem
  | advance hadvance =>
      rcases advance?_eq_some hadvance with
        ⟨job, effect, left, transcript, fault, hjob, hphase, rfl⟩
      have hmem := (mem_of_job? hjob).1
      have hrunning : job.phase ≠ .waiting := by simp [hphase]
      have hstore := h.store.setBindings (h.placed job hmem)
        (effect.onBindings (f.service.store.bindings job.routed.environment))
      exact (h.withStore hstore (Nat.le_refl _)).replace hmem rfl rfl (h.alone hmem hrunning)
        (fun hwaiting => by cases hwaiting)
  | finish hfinish =>
      rcases finish?_eq_some hfinish with ⟨job, transcript, fault, _, _, rfl, _⟩
      exact h.drop _
  | timeOut htimeOut =>
      rcases timeOut?_eq_some htimeOut with ⟨job, hjob, _, ⟨_, rfl⟩ | ⟨hphase, rfl⟩⟩
      · exact h.drop _
      · have hmem := (mem_of_job? hjob).1
        exact h.replace hmem rfl rfl (h.alone hmem hphase) (fun hwaiting => absurd hwaiting hphase)
  | remove interpreter id =>
      have hnext := Store.nextEnvironment_remove f.service.store interpreter id
      exact h.withStore (h.store.remove interpreter id) (Nat.le_of_eq hnext.symm)
  | sweep now =>
      exact h.withStore (h.store.sweep f.inUse f.service.retention now) (Nat.le_refl _)

/-- Mutual exclusion, at every moment of every run. -/
theorem WellFormed.run {f f' : Flow} {events : List Event} (h : f.WellFormed)
    (hrun : Run f events f') : f'.WellFormed := by
  induction hrun with
  | nil => exact h
  | snoc _ hstep ih => exact ih.step hstep

/-! ## What is still to be done on an environment -/

/-- The effects that running jobs are about to take on an environment. -/
def effectsOn (f : Flow) (e : EnvironmentId) : List Effect :=
  f.jobs.flatMap (Job.effectsOn e)

/-- The bindings that a key will have when the evaluations under way are done. -/
def settledAt (f : Flow) (k : Key) : Bindings :=
  match f.service.store.environmentAt k with
  | none => .empty
  | some e => (f.effectsOn e).foldl Effect.onBindings (f.service.store.bindings e)

theorem flatMap_eq_of_unique {α β : Type} {xs : List α} {x : α} {g : α → List β} (hnd : xs.Nodup)
    (hx : x ∈ xs) (hothers : ∀ y ∈ xs, y ≠ x → g y = []) : xs.flatMap g = g x := by
  -- all that is before `x` and behind it gives nothing
  rcases List.append_of_mem hx with ⟨before, behind, rfl⟩
  rcases List.nodup_middle.mp hnd with _ | ⟨hfresh, _⟩
  have hnone : ∀ ys : List α, (∀ y ∈ ys, y ∈ before ++ behind) → ys.flatMap g = [] := by
    intro ys hys
    refine List.flatMap_eq_nil_iff.mpr ?_
    intro y hy
    have hmem := hys y hy
    refine hothers y (by simpa [or_left_comm] using .inr (List.mem_append.mp hmem)) ?_
    rintro rfl
    exact hfresh y hmem rfl
  have hbefore := hnone before (fun y hy => List.mem_append_left _ hy)
  have hbehind := hnone behind (fun y hy => List.mem_append_right _ hy)
  simp [hbefore, hbehind]

variable {f : Flow} {job : Job} {e : EnvironmentId}

/-- A running job is the only one whose effects count. -/
theorem effectsOn_of_running (h : f.WellFormed) (hmem : job ∈ f.jobs)
    (hphase : job.phase ≠ .waiting) : f.effectsOn job.routed.environment = job.left := by
  have hrun : job.isRunningOn job.routed.environment = true :=
    Job.isRunningOn_iff.mpr ⟨hphase, rfl⟩
  have hself : job.effectsOn job.routed.environment = job.left := by simp [Job.effectsOn, hrun]
  refine (flatMap_eq_of_unique h.numbers.of_map hmem ?_).trans hself
  intro other hother hne
  have hnumber : other.number ≠ job.number := fun heq => hne (h.eq_of_number hother hmem heq)
  simp [Job.effectsOn, h.alone hmem hphase other hother hnumber]

theorem effectsOn_of_isLocked (h : f.isLocked e = false) : f.effectsOn e = [] := by
  refine List.flatMap_eq_nil_iff.mpr ?_
  intro job hmem
  simp [Job.effectsOn, WellFormed.of_isLocked h job hmem]

/-- Nothing is to be done on an environment that has not been made. -/
theorem effectsOn_of_not_placed (h : f.WellFormed) (he : f.service.store.nextEnvironment ≤ e) :
    f.effectsOn e = [] := by
  refine List.flatMap_eq_nil_iff.mpr ?_
  intro job hmem
  refine Job.effectsOn_of_ne ?_
  intro heq
  exact absurd (h.placed job hmem) (Nat.not_lt.mpr (heq ▸ he))

/-- A job that goes on elsewhere, or that does not go on, changes nothing here. -/
theorem effectsOn_replace (h : f.WellFormed) {old : Job} (hold : old ∈ f.jobs)
    (hnumber : job.number = old.number) (hsame : old.effectsOn e = job.effectsOn e) :
    (f.replace job).effectsOn e = f.effectsOn e := by
  simp only [effectsOn, replace, List.flatMap_map]
  refine List.flatMap_congr ?_
  intro other hmem
  -- the job with the number is the old one, since no two jobs have one number
  by_cases hself : other.number = job.number
  · have hother : other = old := h.eq_of_number hmem hold (hself.trans hnumber)
    simp [hother, hnumber, hsame]
  · simp [hself]

/-- A job without effects left can be dropped. -/
theorem effectsOn_drop (h : f.WellFormed) (hmem : job ∈ f.jobs) (hnone : job.effectsOn e = []) :
    (f.drop job.number).effectsOn e = f.effectsOn e := by
  have hdrop : ∀ jobs : List Job, (∀ other ∈ jobs, other ∈ f.jobs) →
      (jobs.filter fun other => other.number ≠ job.number).flatMap (Job.effectsOn e) =
        jobs.flatMap (Job.effectsOn e) := by
    intro jobs hjobs
    -- by induction on the jobs; only the dropped one is missing, and it gave nothing
    induction jobs with
    | nil => rfl
    | cons other rest ih =>
        have hrest := ih (fun x hx => hjobs x (List.mem_cons_of_mem _ hx))
        by_cases hself : other.number = job.number
        · have hother : other = job := h.eq_of_number (hjobs other (by simp)) hmem hself
          have hempty : other.effectsOn e = [] := by simpa [hother] using hnone
          simpa [hself, hempty] using hrest
        · simpa [hself] using hrest
  exact hdrop f.jobs (fun _ hother => hother)

/-! ## Settled bindings, step by step -/

/-- Routing a submission settles nothing. -/
theorem settledAt_enrol (h : f.WellFormed) (now : Instant) (t : Target) (k : Key) :
    ({ f with
        service := { f.service with store := (f.service.store.lookup now t.name t.session).1 }
        jobs := f.jobs ++ [f.enrolled now t]
        nextNumber := f.nextNumber + 1 } : Flow).settledAt k = f.settledAt k := by
  have heffects : ∀ e, (f.jobs ++ [f.enrolled now t]).flatMap (Job.effectsOn e) =
      f.effectsOn e := by
    intro e
    have hnew : (f.enrolled now t).effectsOn e = [] := Job.effectsOn_of_waiting rfl e
    simp [effectsOn, hnew]
  by_cases hself : k = .ofCell t.name t.session
  · subst hself
    have hnow := Store.environmentAt_lookup_self f.service.store now t.name t.session
    have hfound := Store.lookup_environment f.service.store now t.name t.session
    rcases hold : f.service.store.environmentAt (.ofCell t.name t.session) with _ | e
    · -- a new environment is empty, and nobody runs on it
      simp only [hold, Option.getD_none] at hfound
      have hblank := h.store.blank (Nat.le_refl f.service.store.nextEnvironment)
      have hnone : f.jobs.flatMap (Job.effectsOn f.service.store.nextEnvironment) = [] :=
        effectsOn_of_not_placed h (Nat.le_refl f.service.store.nextEnvironment)
      simp [settledAt, effectsOn, heffects, Store.bindings_lookup, hnow, hfound, hold, hblank,
        hnone]
    · simp only [hold, Option.getD_some] at hfound
      simp only [settledAt, effectsOn, heffects, Store.bindings_lookup, hnow, hfound, hold]
  · have hkept := Store.environmentAt_lookup_of_ne hself now (s := f.service.store)
    simp only [settledAt, effectsOn, heffects, Store.bindings_lookup, hkept]

/-- A job that starts will leave the bindings of its evaluation to its key, and to no other. -/
theorem settledAt_start (h : f.WellFormed) (hmem : job ∈ f.jobs)
    (hfree : f.isLocked job.routed.environment = false) {target : Key}
    (htarget : f.service.store.environmentAt target = some job.routed.environment)
    {evaluation : Evaluation} {started : Job} (hnumber : started.number = job.number)
    (hrouted : started.routed = job.routed)
    (hphase : started.phase = .running evaluation.effects .empty evaluation.fault)
    (hnext : (f.replace started).WellFormed) (k : Key) :
    (f.replace started).settledAt k =
      if k = target then evaluation.bindings (f.settledAt k) else f.settledAt k := by
  have hstarted : started ∈ (f.replace started).jobs :=
    (mem_replace hmem hnumber.symm).mpr (.inl rfl)
  have hwas : job.effectsOn job.routed.environment = [] := by
    simp [Job.effectsOn, WellFormed.of_isLocked hfree job hmem]
  by_cases hself : k = target
  -- the environment was free, so all effects of the evaluation are to come and no others
  · subst hself
    have hbefore : f.effectsOn job.routed.environment = [] := effectsOn_of_isLocked hfree
    have hafter : (f.replace started).effectsOn job.routed.environment = evaluation.effects := by
      have hrunning := effectsOn_of_running hnext hstarted (by simp [hphase])
      simpa [hrouted, Job.left, hphase] using hrunning
    have henvironment : (f.replace started).service.store.environmentAt k =
        some job.routed.environment := htarget
    have hbindings : (f.replace started).service.store.bindings = f.service.store.bindings := rfl
    simp only [settledAt, henvironment, htarget, hafter, hbefore, hbindings, if_true,
      List.foldl_nil, Evaluation.bindings]
  · -- the environment of another key is another one, where the job neither ran nor runs
    have hstore : (f.replace started).service.store = f.service.store := rfl
    rcases hk : f.service.store.environmentAt k with _ | e
    · simp only [settledAt, hstore, hk, hself, if_false]
    · have hne : job.routed.environment ≠ e := by
        intro heq
        exact hself (h.store.separate hk (heq ▸ htarget))
      have hsame : job.effectsOn e = started.effectsOn e := by
        simp only [Job.effectsOn_of_ne hne, Job.effectsOn_of_ne (hrouted ▸ hne)]
      simp only [settledAt, hstore, hk, hself, if_false, effectsOn_replace h hmem hnumber hsame]

/-- Taking an effect brings nothing new: it was to be taken already. -/
theorem settledAt_advanced (h : f.WellFormed) (hmem : job ∈ f.jobs) {effect : Effect}
    {left : List Effect} {transcript : Transcript} {fault : Option String}
    (hphase : job.phase = .running (effect :: left) transcript fault)
    (hnext : (f.advanced job effect left transcript fault).WellFormed) (k : Key) :
    (f.advanced job effect left transcript fault).settledAt k = f.settledAt k := by
  have henvironment : ∀ l, (f.advanced job effect left transcript fault).service.store.environmentAt
      l = f.service.store.environmentAt l := by
    intro l
    exact Store.environmentAt_setBindings f.service.store _ _ l
  have hbindings : ∀ e, (f.advanced job effect left transcript fault).service.store.bindings e =
      if job.routed.environment = e then
        effect.onBindings (f.service.store.bindings job.routed.environment)
      else f.service.store.bindings e := by
    intro e
    exact Store.bindings_setBindings f.service.store _ e _
  let advancedJob : Job :=
    { job with phase := .running left (effect.onTranscript transcript) fault }
  have hnumber : job.number = advancedJob.number := rfl
  have hadvanced : advancedJob ∈ (f.advanced job effect left transcript fault).jobs :=
    (mem_replace (f := { f with service := { f.service with
      store := f.service.store.setBindings job.routed.environment
        (effect.onBindings (f.service.store.bindings job.routed.environment)) } })
      hmem hnumber).mpr (.inl rfl)
  simp only [settledAt, henvironment]
  rcases hk : f.service.store.environmentAt k with _ | e
  · rfl
  · simp only [hbindings]
    by_cases he : job.routed.environment = e
    · -- the effect moves from the ones to be taken to the bindings it is taken on
      subst he
      have hbefore : f.effectsOn job.routed.environment = effect :: left := by
        have hrunning := effectsOn_of_running h hmem (by simp [hphase])
        simpa [Job.left, hphase] using hrunning
      have hafter : (f.advanced job effect left transcript fault).effectsOn
          job.routed.environment = left :=
        effectsOn_of_running hnext hadvanced (by simp [advancedJob])
      simp [hbefore, hafter]
    · have he' : advancedJob.routed.environment ≠ e := he
      have hsame : job.effectsOn e = advancedJob.effectsOn e := by
        simp only [Job.effectsOn_of_ne he, Job.effectsOn_of_ne he']
      have heffects : (f.advanced job effect left transcript fault).effectsOn e = f.effectsOn e :=
        effectsOn_replace (h.withStore (h.store.setBindings (h.placed job hmem) _) (Nat.le_refl _))
          hmem hnumber.symm hsame
      simp [heffects, he]

/-- A job without effects left goes and leaves everything settled as it is. -/
theorem settledAt_drop (h : f.WellFormed) (hmem : job ∈ f.jobs) (hleft : job.left = []) (k : Key) :
    (f.drop job.number).settledAt k = f.settledAt k := by
  have heffects : ∀ e, (f.drop job.number).effectsOn e = f.effectsOn e := by
    intro e
    refine effectsOn_drop h hmem ?_
    simp [Job.effectsOn, hleft]
  have hstore : (f.drop job.number).service.store = f.service.store := rfl
  simp only [settledAt, hstore, heffects]

/-- Answering the client early changes nothing for the evaluation. -/
theorem settledAt_answered (h : f.WellFormed) (hmem : job ∈ f.jobs) (k : Key) :
    (f.replace { job with answered := true }).settledAt k = f.settledAt k := by
  have heffects : ∀ e, (f.replace { job with answered := true }).effectsOn e = f.effectsOn e := by
    intro e
    exact effectsOn_replace h hmem rfl rfl
  have hstore : (f.replace { job with answered := true }).service.store = f.service.store := rfl
  simp only [settledAt, hstore, heffects]

end Flow
end CodeSessions
