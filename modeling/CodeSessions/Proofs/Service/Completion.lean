import CodeSessions.Proofs.Service.Exclusion

/-!
# Completion — every job can be brought to its end

Evaluations are finite, and only a running job stands in the way of a waiting one.  So from every
state the steps of at most two jobs lead to the end of a given job.

- `Event.IsWork`: the steps that need nothing from outside, and `RunsTo`: such steps up to the end
  of a job,
- `runsTo_runOut`, `runsTo_complete` and `job_ends`: a job that runs, that may start, and any job,
- `complete_alone`: what a job that is alone comes to.
-/

namespace CodeSessions
namespace Flow

/-- The reply that a client gets with a step. -/
def Event.reply? : Event → Option Reply
  | refused _ _ reply | timedOut _ reply => some reply
  | ended _ reply? => reply?
  | _ => none

/-- A step of a job whose client is patient. -/
def Event.IsWork : Event → Prop
  | acquired _ | progressed _ | ended _ _ => True
  | _ => False

variable {f f' : Flow} {job : Job} {event : Event} {events : List Event}

theorem Event.IsWork.exists_number? (h : event.IsWork) : ∃ n, event.number? = some n := by
  cases event with
  | acquired n => exact ⟨n, rfl⟩
  | progressed n => exact ⟨n, rfl⟩
  | ended n reply? => exact ⟨n, rfl⟩
  | _ => exact h.elim

theorem Run.cons (hstep : Step f event f') {f'' : Flow} (hrun : Run f' events f'') :
    Run f (event :: events) f'' := by
  induction hrun with
  | nil => exact .snoc .nil hstep
  | snoc _ hlast ih => exact ih.snoc hlast

theorem Run.append (hrun : Run f events f') {later : List Event} {f'' : Flow}
    (hlater : Run f' later f'') : Run f (events ++ later) f'' := by
  induction hlater with
  | nil => simpa using hrun
  | snoc _ hlast ih => simpa using ih.snoc hlast

/-- A job that has been replaced is dropped like the one before it. -/
theorem drop_replace (f : Flow) (job : Job) :
    ((f.replace job).drop job.number).jobs = (f.drop job.number).jobs := by
  simp only [drop, replace]
  induction f.jobs with
  | nil => rfl
  | cons other jobs ih =>
      by_cases hother : other.number = job.number
      · simpa [hother] using ih
      · simpa [hother] using ih

/-! ## Clients -/

/-- A client that waits for a reply gets it with a step, or still waits after it. -/
theorem Step.reply_or_waits (h : f.WellFormed) (hstep : Step f event f') (hmem : job ∈ f.jobs)
    (hanswered : job.answered = false) :
    (event.number? = some job.number ∧ ∃ reply, event.reply? = some reply) ∨
      ∃ next ∈ f'.jobs, next.number = job.number ∧ next.answered = false := by
  -- a job is replaced by one with the same number, and the others stay
  have hreplace : ∀ {g : Flow} {old next : Job}, g.jobs = f.jobs → old ∈ f.jobs →
      next.number = old.number → next.answered = old.answered →
      ∃ next' ∈ (g.replace next).jobs, next'.number = job.number ∧ next'.answered = false := by
    intro g old next hjobs hold hnumber hsame
    by_cases hself : job.number = old.number
    · have hjob := h.eq_of_number hmem hold hself
      have hnext : next ∈ (g.replace next).jobs :=
        (mem_replace (hjobs.symm ▸ hold) hnumber.symm).mpr (.inl rfl)
      exact ⟨next, hnext, hnumber.trans hself.symm, by rw [hsame, ← hjob, hanswered]⟩
    · exact ⟨job, (mem_replace_of_ne (hnumber ▸ hself)).mpr (hjobs.symm ▸ hmem), rfl, hanswered⟩
  cases hstep with
  | submit hsubmit =>
      rcases submit_ok hsubmit with ⟨t, _, _, rfl⟩
      exact .inr ⟨job, List.mem_append_left _ hmem, rfl, hanswered⟩
  | refuse hsubmit =>
      rw [submit_error hsubmit]
      exact .inr ⟨job, hmem, rfl, hanswered⟩
  | start hstart =>
      rcases start?_eq_some hstart with ⟨old, hold, _, _, rfl⟩
      exact .inr (hreplace rfl (mem_of_job? hold).1 rfl rfl)
  | advance hadvance =>
      rcases advance?_eq_some hadvance with ⟨old, effect, left, transcript, fault, hold, _, rfl⟩
      exact .inr (hreplace rfl (mem_of_job? hold).1 rfl rfl)
  | finish hfinish =>
      rcases finish?_eq_some hfinish with ⟨old, transcript, fault, hold, _, rfl, rfl⟩
      rcases mem_of_job? hold with ⟨hmemOld, rfl⟩
      by_cases hself : job.number = old.number
      · have hjob := h.eq_of_number hmem hmemOld hself
        subst hjob
        exact .inl ⟨rfl, f.replyOf transcript fault, by simp [Event.reply?, hanswered]⟩
      · exact .inr ⟨job, mem_drop.mpr ⟨hmem, hself⟩, rfl, hanswered⟩
  | timeOut htimeOut =>
      rcases timeOut?_eq_some htimeOut with ⟨old, hold, _, hcases⟩
      rcases mem_of_job? hold with ⟨hold, rfl⟩
      by_cases hself : job.number = old.number
      · exact .inl ⟨congrArg some hself.symm, _, rfl⟩
      · rcases hcases with ⟨_, rfl⟩ | ⟨_, rfl⟩
        · exact .inr ⟨job, mem_drop.mpr ⟨hmem, hself⟩, rfl, hanswered⟩
        · refine .inr ⟨job, (mem_replace_of_ne ?_).mpr hmem, rfl, hanswered⟩
          exact hself
  | remove interpreter id => exact .inr ⟨job, hmem, rfl, hanswered⟩
  | sweep now => exact .inr ⟨job, hmem, rfl, hanswered⟩

/-! ## Any job -/

/-- Steps that lead to the end of a job and to nothing else, and give what is known of its reply. -/
structure RunsTo (f : Flow) (number : Nat) (result : Flow × Option Reply) : Prop where
  run : ∃ events, Run f events result.1 ∧ (∀ event ∈ events, event.IsWork) ∧
    .ended number result.2 ∈ events ∧ events.filterMap Event.reply? = result.2.toList
  jobs : result.1.jobs = (f.drop number).jobs

theorem RunsTo.cons {g : Flow} {number : Nat} {result : Flow × Option Reply}
    (h : RunsTo g number result) (hstep : Step f event g) (hwork : event.IsWork)
    (hreply : event.reply? = none) (hjobs : (g.drop number).jobs = (f.drop number).jobs) :
    RunsTo f number result where
  run := by
    rcases h.run with ⟨events, hrun, hrest, hended, hreplies⟩
    exact ⟨event :: events, .cons hstep hrun, List.forall_mem_cons.mpr ⟨hwork, hrest⟩,
      List.mem_cons_of_mem event hended, by simpa [hreply] using hreplies⟩
  jobs := h.jobs.trans hjobs

/-- A running job takes the effects that it has left, and ends. -/
theorem runsTo_runOut {left : List Effect} {transcript : Transcript} {fault : Option String}
    (h : f.WellFormed) (hmem : job ∈ f.jobs) (hphase : job.phase = .running left transcript fault) :
    RunsTo f job.number (f.runOut job.number left.length) ∧
      (job.answered = false → (f.runOut job.number left.length).2 ≠ none) := by
  induction left generalizing f job transcript with
  | nil =>
      have hfinish : f.finish? job.number = some (f.drop job.number,
          if job.answered then none else some (f.replyOf transcript fault)) := by
        simp only [finish?, h.job?_of_mem hmem, hphase]
        rfl
      simp only [List.length_nil, runOut, hfinish, Option.getD_some]
      refine ⟨⟨⟨_, .snoc .nil (.finish hfinish), ?_, List.mem_singleton_self _, ?_⟩, rfl⟩, ?_⟩
      · simp [Event.IsWork]
      · cases job.answered <;> rfl
      · intro hanswered
        simp [hanswered]
  | cons effect left ih =>
      have hadvance : f.advance? job.number =
          some (f.advanced job effect left transcript fault) := by
        simp [advance?, h.job?_of_mem hmem, hphase, advanced]
      have hstep : Step f (.progressed job.number) (f.advanced job effect left transcript fault) :=
        .advance hadvance
      let next : Job := { job with phase := .running left (effect.onTranscript transcript) fault }
      have hnext : next ∈ (f.advanced job effect left transcript fault).jobs := by
        refine (mem_replace (f := { f with service := _ }) hmem ?_).mpr (.inl rfl)
        rfl
      rcases ih (h.step hstep) hnext rfl with ⟨hrest, hreply⟩
      simp only [List.length_cons, runOut, hadvance]
      exact ⟨hrest.cons hstep trivial rfl (drop_replace _ next), hreply⟩

/-- A waiting job starts when its environment is free. -/
theorem runsTo_complete (h : f.WellFormed) (hmem : job ∈ f.jobs) (hphase : job.phase = .waiting)
    (hfree : f.isLocked job.routed.environment = false) :
    RunsTo f job.number (f.complete job.number) ∧ (f.complete job.number).2 ≠ none := by
  let evaluation := f.service.evaluation job.routed
  let next : Job :=
    { job with phase := .running evaluation.effects .empty evaluation.fault }
  have hstart : f.start? job.number = some (f.replace next) := by
    simp [start?, h.job?_of_mem hmem, hphase, hfree, next, evaluation]
  have hstep : Step f (.acquired job.number) (f.replace next) := .start hstart
  have hnext : next ∈ (f.replace next).jobs := by
    refine (mem_replace hmem ?_).mpr (.inl rfl)
    rfl
  have hjob : (f.replace next).job? job.number = some next := (h.step hstep).job?_of_mem hnext
  have hcomplete : f.complete job.number =
      (f.replace next).runOut job.number evaluation.effects.length := by
    simp only [complete, hstart, Option.getD_some, effectsLeft, hjob, next]
  rcases runsTo_runOut (h.step hstep) hnext rfl with ⟨hrest, hreply⟩
  rw [hcomplete]
  exact ⟨hrest.cons hstep trivial rfl (drop_replace f next),
    hreply (h.unanswered job hmem hphase)⟩

/-- Only one job runs on an environment, so its end leaves the environment free. -/
theorem isLocked_of_ended (h : f.WellFormed) (hmem : job ∈ f.jobs) {e : EnvironmentId}
    (hrunning : job.isRunningOn e = true) (hjobs : f'.jobs = (f.drop job.number).jobs) :
    f'.isLocked e = false := by
  refine List.any_eq_false.mpr fun other hother => ?_
  rcases mem_drop.mp (hjobs ▸ hother) with ⟨hthere, hnumber⟩
  intro hother
  have hself := h.exclusive e other hthere job hmem hother hrunning
  exact hnumber (congrArg Job.number hself)

/-- Every job can be brought to its end, and if its client still waits, it gets its reply. -/
theorem job_ends (h : f.WellFormed) (hmem : job ∈ f.jobs) :
    ∃ events f' reply?, Run f events f' ∧ (∀ event ∈ events, event.IsWork) ∧
      .ended job.number reply? ∈ events ∧
      (job.answered = false → ∃ reply, reply? = some reply) := by
  rcases hphase : job.phase with _ | ⟨left, transcript, fault⟩
  · by_cases hfree : f.isLocked job.routed.environment = false
    · rcases runsTo_complete h hmem hphase hfree with ⟨hruns, hreply⟩
      rcases hruns.run with ⟨events, hrun, hwork, hended, _⟩
      exact ⟨events, _, _, hrun, hwork, hended, fun _ => Option.ne_none_iff_exists'.mp hreply⟩
    · -- the job that runs there goes first, and leaves the environment to this one
      have hlocked : f.isLocked job.routed.environment = true := by simpa using hfree
      rcases List.any_eq_true.mp hlocked with ⟨other, hother, hrunning⟩
      rcases Job.isRunningOn_iff.mp hrunning with ⟨hotherPhase, _⟩
      rcases hleft : other.phase with _ | ⟨left, transcript, fault⟩
      · exact absurd hleft hotherPhase
      · have hfirst := (runsTo_runOut h hother hleft).1
        rcases hfirst.run with ⟨before, hbefore, hworkBefore, _, _⟩
        generalize f.runOut other.number left.length = result at hfirst hbefore
        have hne : job.number ≠ other.number := by
          intro hnumber
          have hself := h.eq_of_number hmem hother hnumber
          exact hotherPhase (hself ▸ hphase)
        have hthere : job ∈ result.1.jobs := hfirst.jobs ▸ mem_drop.mpr ⟨hmem, hne⟩
        have hnone := isLocked_of_ended h hother hrunning hfirst.jobs
        rcases runsTo_complete (h.run hbefore) hthere hphase hnone with ⟨hruns, hreply⟩
        rcases hruns.run with ⟨after, hafter, hworkAfter, hended, _⟩
        exact ⟨before ++ after, _, _, hbefore.append hafter,
          List.forall_mem_append.mpr ⟨hworkBefore, hworkAfter⟩, List.mem_append_right _ hended,
          fun _ => Option.ne_none_iff_exists'.mp hreply⟩
  · rcases runsTo_runOut h hmem hphase with ⟨hruns, hreply⟩
    rcases hruns.run with ⟨events, hrun, hwork, hended, _⟩
    exact ⟨events, _, _, hrun, hwork, hended,
      fun hanswered => Option.ne_none_iff_exists'.mp (hreply hanswered)⟩

end Flow

/-! ## A job that is alone -/

namespace Store

/-- The store after effects on an environment, one after the other. -/
def takeAll (s : Store) (e : EnvironmentId) (effects : List Effect) : Store :=
  effects.foldl (fun s effect => s.setBindings e (effect.onBindings (s.bindings e))) s

/-- Two stores that nobody can tell apart. -/
structure Alike (s t : Store) : Prop where
  shelves : s.shelves = t.shelves
  nextEnvironment : s.nextEnvironment = t.nextEnvironment
  bindings : ∀ e, s.bindings e = t.bindings e

/-- Effects that are taken one by one come to the same as their bindings at the end. -/
theorem alike_takeAll (s : Store) (e : EnvironmentId) (effects : List Effect) :
    Alike (s.takeAll e effects)
      (s.setBindings e (effects.foldl Effect.onBindings (s.bindings e))) := by
  induction effects generalizing s with
  | nil =>
      refine ⟨rfl, rfl, fun other => ?_⟩
      rw [bindings_setBindings]
      by_cases he : e = other
      · simp [takeAll, he]
      · simp [takeAll, he]
  | cons effect effects ih =>
      have hrest := ih (s.setBindings e (effect.onBindings (s.bindings e)))
      refine ⟨hrest.shelves, hrest.nextEnvironment, fun other => ?_⟩
      rw [bindings_setBindings]
      refine (hrest.bindings other).trans ?_
      simp only [bindings_setBindings, if_true, List.foldl_cons]
      by_cases he : e = other
      · simp [he]
      · simp [he]

end Store

namespace Flow

variable {f : Flow} {job : Job}

theorem runOut_alone {left : List Effect} {transcript : Transcript} {fault : Option String}
    (hjobs : f.jobs = [job]) (hphase : job.phase = .running left transcript fault) :
    f.runOut job.number left.length =
      ({ f with
          service := { f.service with
            store := f.service.store.takeAll job.routed.environment left }
          jobs := [] },
        if job.answered then none
        else some (f.replyOf (left.foldl Effect.onTranscript transcript) fault)) := by
  have hjob : f.job? job.number = some job := by simp [job?, hjobs]
  induction left generalizing f job transcript with
  | nil =>
      have hdrop : f.drop job.number = { f with jobs := [] } := by simp [drop, hjobs]
      simp only [List.length_nil, runOut, finish?, hjob, hphase, hdrop, Option.getD_some]
      rfl
  | cons effect left ih =>
      have hadvance : f.advance? job.number =
          some (f.advanced job effect left transcript fault) := by
        simp [advance?, hjob, hphase, advanced]
      let next : Job := { job with phase := .running left (effect.onTranscript transcript) fault }
      have hnext : (f.advanced job effect left transcript fault).jobs = [next] := by
        simp [advanced, replace, hjobs, next]
      have hrest := ih hnext rfl (by simp [job?, hnext])
      simp only [List.length_cons, runOut, hadvance]
      exact hrest

theorem complete_alone (hjobs : f.jobs = [job]) (hphase : job.phase = .waiting) :
    f.complete job.number =
      ({ f with
          service := { f.service with
            store := f.service.store.takeAll job.routed.environment
              (f.service.evaluation job.routed).effects }
          jobs := [] },
        if job.answered then none
        else some (f.replyOf (f.service.evaluation job.routed).transcript
          (f.service.evaluation job.routed).fault)) := by
  have hjob : f.job? job.number = some job := by simp [job?, hjobs]
  have hfree : f.isLocked job.routed.environment = false := by
    simp [isLocked, hjobs, Job.isRunningOn, hphase]
  let next : Job :=
    { job with
      phase := .running (f.service.evaluation job.routed).effects .empty
        (f.service.evaluation job.routed).fault }
  have hstart : f.start? job.number = some (f.replace next) := by
    simp [start?, hjob, hphase, hfree, next]
  have hnext : (f.replace next).jobs = [next] := by simp [replace, hjobs, next]
  have hleft : (f.replace next).effectsLeft job.number =
      (f.service.evaluation job.routed).effects.length := by
    simp [effectsLeft, job?, hnext, next]
  have hrun := runOut_alone hnext rfl
  simp only [complete, hstart, Option.getD_some, hleft]
  exact hrun

end Flow
end CodeSessions
