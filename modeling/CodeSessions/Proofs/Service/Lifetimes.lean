import CodeSessions.Proofs.Service.Requests

/-!
# Lifetimes — where sessions come from, and what comes after them

Only a submission to a known interpreter makes a session.  When the session has been removed, the
next one with its id is another one: whoever comes first to it finds nothing bound, however many
evaluations still run on the environment of the old one.

- `Flow.Registered` is the invariant that sessions belong to interpreters in the catalogue;
  `Registered.step` is the step and `Registered.run` the run,
- `Flow.Unused` says of an environment that nothing has been done on it, and `Unused.step` that this
  stays so until one of its jobs starts,
- `Flow.Renewed` is what holds of a key from the removal of its session on; `Renewed.step` is the
  step and `Renewed.run` the run, and `Renewed.evaluation` says what the first job starts from.
-/

namespace CodeSessions

/-- A submission with a target names an interpreter of the catalogue. -/
theorem Catalogue.contains_of_target? {c : Catalogue} {submission : Submission} {t : Target}
    (h : c.target? submission = some t) : c.contains t.name = true := by
  have hfind : c.entries.get? t.name = some t.interpreter := (target?_eq_some_iff.mp h).2.1
  simp [contains, Table.contains, hfind]

namespace Flow

variable {f f' : Flow} {event : Event} {events : List Event} {k : Key} {e : EnvironmentId}

/-! ## Registered interpreters -/

def Registered (f : Flow) : Prop :=
  ∀ interpreter, ∀ session ∈ f.service.store.sessions interpreter,
    f.service.catalogue.contains interpreter = true

theorem Step.catalogue (hstep : Step f event f') : f'.service.catalogue = f.service.catalogue := by
  rw [hstep.change.2.1]

/-- An interpreter that has sessions after a step had some before it, or is in the catalogue. -/
theorem Change.session_before {store : Store} (hchange : Change f event store) (h : f.WellFormed)
    {interpreter : String} {session : Session} (hmem : session ∈ store.sessions interpreter) :
    (∃ old, old ∈ f.service.store.sessions interpreter) ∨
      f.service.catalogue.contains interpreter = true := by
  cases hchange with
  | @lookedUp now submission t htarget =>
      by_cases hself : t.name = interpreter
      · exact .inr (hself ▸ Catalogue.contains_of_target? htarget)
      · rw [Store.sessions_lookup_of_ne _ _ _ hself] at hmem
        exact .inl ⟨session, hmem⟩
  | written _ _ => exact .inl ⟨session, hmem⟩
  | removed _ _ _ =>
      rw [Store.sessions_remove] at hmem
      split at hmem
      · exact .inl ⟨session, (List.mem_filter.mp hmem).1⟩
      · exact .inl ⟨session, hmem⟩
  | swept now count =>
      rw [Store.sessions_sweep h.store.toTidy] at hmem
      exact .inl ⟨session, (List.mem_filter.mp hmem).1⟩
  | none _ _ => exact .inl ⟨session, hmem⟩

theorem Registered.step (hreg : f.Registered) (h : f.WellFormed) (hstep : Step f event f') :
    f'.Registered := by
  intro interpreter session hmem
  rw [hstep.catalogue]
  rcases hstep.change.1.session_before h hmem with ⟨old, hold⟩ | hknown
  · exact hreg interpreter old hold
  · exact hknown

theorem Registered.run (hreg : f.Registered) (h : f.WellFormed) (hrun : Run f events f') :
    f'.Registered ∧ f'.service.catalogue = f.service.catalogue := by
  induction hrun with
  | nil => exact ⟨hreg, rfl⟩
  | snoc hbefore hstep ih =>
      exact ⟨ih.1.step (h.run hbefore) hstep, hstep.catalogue.trans ih.2⟩

/-! ## Environments that nobody has used -/

/-- The job with a number is that of a submission with this target. -/
def Asks (c : Catalogue) (events : List Event) (n : Nat) (t : Target) : Prop :=
  ∃ now submission, .submitted n now submission ∈ events ∧ c.target? submission = some t

theorem Asks.append {c : Catalogue} {n : Nat} {t : Target} (h : Asks c events n t)
    (later : List Event) : Asks c (events ++ later) n t := by
  rcases h with ⟨now, submission, hmem, htarget⟩
  exact ⟨now, submission, List.mem_append_left _ hmem, htarget⟩

theorem Asks.of_snoc {c : Catalogue} {n : Nat} {t : Target} (h : Asks c (events ++ [event]) n t) :
    Asks c events n t ∨
      ∃ now submission, event = .submitted n now submission ∧ c.target? submission = some t := by
  rcases h with ⟨now, submission, hmem, htarget⟩
  rcases List.mem_append.mp hmem with hold | hlast
  · exact .inl ⟨now, submission, hold, htarget⟩
  · exact .inr ⟨now, submission, (List.mem_singleton.mp hlast).symm, htarget⟩

/-- An environment is empty, and it is only for jobs of one key, none of which has started. -/
structure Unused (f : Flow) (events : List Event) (k : Key) (e : EnvironmentId) : Prop where
  blank : f.service.store.bindings e = .empty
  waiting : ∀ job ∈ f.jobs, job.routed.environment = e → job.phase = .waiting ∧
    ∃ t, Asks f.service.catalogue events job.number t ∧ t.key = k
  own : ∀ l, f.service.store.environmentAt l = some e → l = k

/-- An environment behind a key after a step was behind it before, or has just been looked up. -/
theorem Change.environmentAt_before {store : Store} (hchange : Change f event store)
    (h : f.WellFormed) {l : Key} (hl : store.environmentAt l = some e) :
    f.service.store.environmentAt l = some e ∨
      ∃ now submission t, event = .submitted f.nextNumber now submission ∧
        f.service.catalogue.target? submission = some t ∧ t.key = l ∧
        (f.service.store.lookup now t.name t.session).2 = e := by
  cases hchange with
  | @lookedUp now submission t htarget =>
      by_cases hself : l = t.key
      · subst hself
        have hnow := Store.environmentAt_lookup_self f.service.store now t.name t.session
        exact .inr ⟨now, submission, t, rfl, htarget, rfl, Option.some.inj (hnow.symm.trans hl)⟩
      · exact .inl ((Store.environmentAt_lookup_of_ne hself now).symm.trans hl)
  | written _ _ => exact .inl (by simpa using hl)
  | removed interpreter id found =>
      have hcases := Store.sessionAt_remove_cases f.service.store interpreter id l
      exact .inl (Store.environmentAt_of_dropped hcases hl)
  | swept now count =>
      have hcases := Store.sessionAt_sweep_cases h.store.toTidy f.inUse f.service.retention now l
      exact .inl (Store.environmentAt_of_dropped hcases hl)
  | none _ _ => exact .inl hl

/-- A step changes bindings only where a job runs. -/
theorem Change.bindings_of_waiting {store : Store} (hchange : Change f event store)
    (hwaiting : ∀ job ∈ f.jobs, job.routed.environment = e → job.phase = .waiting) :
    store.bindings e = f.service.store.bindings e := by
  cases hchange with
  | lookedUp _ => simp
  | @written n job effect left transcript fault hjob hphase =>
      by_cases hself : job.routed.environment = e
      · have hidle := hwaiting job (mem_of_job? hjob).1 hself
        simp [hphase] at hidle
      · simp [hself]
  | removed _ _ _ => simp
  | swept _ _ => rfl
  | none _ _ => rfl

/-- A job that waits after a step, or that starts with none, waited before it. -/
theorem Move.waiting {jobs : List Job} {next : Nat} (hmove : Move f event jobs next)
    (hwaiting : ∀ job ∈ f.jobs, job.routed.environment = e →
      job.phase = .waiting ∧ event ≠ .acquired job.number) :
    ∀ job ∈ jobs, job.routed.environment = e → job.phase = .waiting := by
  intro job hmem he
  cases hmove with
  | enrolled _ =>
      rcases List.mem_append.mp hmem with hold | hnew
      · exact (hwaiting job hold he).1
      · rw [List.mem_singleton.mp hnew]
        rfl
  | forward hold hnumber hrouted _ _ hstart _ =>
      rcases (mem_replace hold hnumber.symm).mp hmem with rfl | ⟨hother, _⟩
      · -- the job that goes on is not on this environment, or it would have to start
        rcases hwaiting _ hold (hrouted ▸ he) with ⟨hphase, hnot⟩
        exact absurd (hstart hphase) hnot
      · exact (hwaiting job hother he).1
  | gone _ _ => exact (hwaiting job (mem_drop.mp hmem).1 he).1
  | still _ _ => exact (hwaiting job hmem he).1

theorem Unused.step (hunused : f.Unused events k e) (h : f.WellFormed) (hstep : Step f event f')
    (hstart : ∀ n t, Asks f.service.catalogue events n t → t.key = k → event ≠ .acquired n)
    (hnew : ∀ now submission t, event = .submitted f.nextNumber now submission →
      f.service.catalogue.target? submission = some t →
      (f.service.store.lookup now t.name t.session).2 = e → t.key = k) :
    f'.Unused (events ++ [event]) k e := by
  have hidle : ∀ job ∈ f.jobs, job.routed.environment = e →
      job.phase = .waiting ∧ event ≠ .acquired job.number := by
    intro job hmem he
    rcases hunused.waiting job hmem he with ⟨hphase, t, hasks, hkey⟩
    exact ⟨hphase, hstart job.number t hasks hkey⟩
  refine ⟨?_, ?_, ?_⟩
  · exact (hstep.change.1.bindings_of_waiting fun job hmem he => (hidle job hmem he).1).trans
      hunused.blank
  · intro job hmem he
    refine ⟨hstep.move.waiting hidle job hmem he, ?_⟩
    rw [hstep.catalogue]
    rcases hstep.move.job_before hmem with ⟨old, hold, hnumber, hrouted⟩ |
      ⟨now, submission, t, hevent, htarget, rfl⟩
    · rcases hunused.waiting old hold (hrouted ▸ he) with ⟨_, t, hasks, hkey⟩
      exact ⟨t, hnumber ▸ hasks.append [event], hkey⟩
    · refine ⟨t, ⟨now, submission, ?_, htarget⟩, hnew now submission t hevent htarget he⟩
      exact List.mem_append_right _ (List.mem_singleton.mpr hevent.symm)
  · intro l hl
    rcases hstep.change.1.environmentAt_before h hl with
      hold | ⟨now, submission, t, hevent, htarget, rfl, he⟩
    · exact hunused.own l hold
    · exact hnew now submission t hevent htarget he

/-- An environment that has not been made is unused. -/
theorem unused_nextEnvironment (h : f.WellFormed) (events : List Event) (k : Key) :
    f.Unused events k f.service.store.nextEnvironment where
  blank := h.store.blank (Nat.le_refl _)
  waiting := by
    intro job hmem he
    exact absurd he (Nat.ne_of_lt (h.placed job hmem))
  own := by
    intro l hl
    exact absurd (h.store.made hl) (Nat.lt_irrefl _)

/-! ## Keys whose sessions have been removed -/

/-- What holds of a key when no job for it has started since its session was removed. -/
structure Renewed (c : Catalogue) (events : List Event) (k : Key) (f : Flow) : Prop where
  wellFormed : f.WellFormed
  catalogue : f.service.catalogue = c
  given : ∀ n t, Asks c events n t → n < f.nextNumber
  behind : ∀ e, f.service.store.environmentAt k = some e → f.Unused events k e
  asked : ∀ job ∈ f.jobs, ∀ t, Asks c events job.number t → t.key = k →
    f.Unused events k job.routed.environment ∧
      job.routed.interpreter = t.interpreter ∧ job.routed.body = t.body

theorem Renewed.of_absent (h : f.WellFormed) (hk : f.service.store.environmentAt k = none) :
    Renewed f.service.catalogue [] k f where
  wellFormed := h
  catalogue := rfl
  given := by
    rintro n t ⟨_, _, hmem, _⟩
    cases hmem
  behind := by
    intro e he
    simp [hk] at he
  asked := by
    rintro job _ t ⟨_, _, hmem, _⟩
    cases hmem

/-- The environment that a submission for the key gets is unused. -/
theorem Renewed.unused_lookup {c : Catalogue} {t : Target} (h : Renewed c events t.key f)
    (now : Instant) : f.Unused events t.key (f.service.store.lookup now t.name t.session).2 := by
  rw [Store.lookup_target]
  rcases hk : f.service.store.environmentAt t.key with _ | e
  · exact unused_nextEnvironment h.wellFormed events t.key
  · exact h.behind e hk

/-- An unused environment that has been made is looked up for its key only. -/
theorem Unused.key_of_lookup (h : f.Unused events k e) (he : e < f.service.store.nextEnvironment)
    {now : Instant} {t : Target} (hlookup : (f.service.store.lookup now t.name t.session).2 = e) :
    t.key = k := by
  rw [Store.lookup_target] at hlookup
  rcases hk : f.service.store.environmentAt t.key with _ | e'
  · rw [hk, Option.getD_none] at hlookup
    exact absurd he (Nat.not_lt.mpr (Nat.le_of_eq hlookup))
  · rw [hk, Option.getD_some] at hlookup
    exact h.own t.key (hlookup ▸ hk)

theorem Step.submitted_number {n : Nat} {now : Instant} {submission : Submission}
    (hstep : Step f (.submitted n now submission) f') :
    n = f.nextNumber ∧ f'.nextNumber = f.nextNumber + 1 := by
  cases hstep with
  | submit hsubmit =>
      rcases submit_ok hsubmit with ⟨t, _, rfl, rfl⟩
      exact ⟨rfl, rfl⟩

/-- An unused environment that has been made stays unused. -/
theorem Renewed.kept (h : Renewed f.service.catalogue events k f) (hstep : Step f event f')
    (hstart : ∀ n t, Asks f.service.catalogue events n t → t.key = k → event ≠ .acquired n)
    (hunused : f.Unused events k e) (he : e < f.service.store.nextEnvironment) :
    f'.Unused (events ++ [event]) k e :=
  hunused.step h.wellFormed hstep hstart fun _ _ _ _ _ hlookup => hunused.key_of_lookup he hlookup

/-- What a submission for the key looks up is unused, be it new or not. -/
theorem Renewed.made {t : Target} (h : Renewed f.service.catalogue events t.key f)
    {now : Instant} {submission : Submission}
    (hstep : Step f (.submitted f.nextNumber now submission) f')
    (htarget : f.service.catalogue.target? submission = some t) :
    f'.Unused (events ++ [.submitted f.nextNumber now submission]) t.key
      (f.service.store.lookup now t.name t.session).2 := by
  refine (h.unused_lookup now).step h.wellFormed hstep (fun _ _ _ _ => by simp) ?_
  intro now' submission' t' hevent htarget' _
  cases hevent
  cases htarget.symm.trans htarget'
  rfl

theorem Renewed.step {c : Catalogue} (h : Renewed c events k f) (hstep : Step f event f')
    (hstart : ∀ n t, Asks c events n t → t.key = k → event ≠ .acquired n) :
    Renewed c (events ++ [event]) k f' := by
  rcases h.catalogue with rfl
  have hwf := h.wellFormed
  refine ⟨hwf.step hstep, hstep.catalogue, ?_, ?_, ?_⟩
  · intro n t hasks
    rcases hasks.of_snoc with hearlier | ⟨now, submission, rfl, _⟩
    · exact Nat.lt_of_lt_of_le (h.given n t hearlier) hstep.move.le_next
    · rcases hstep.submitted_number with ⟨rfl, hnext⟩
      exact hnext ▸ Nat.lt_succ_self _
  · intro e he
    rcases hstep.change.1.environmentAt_before hwf he with
      hold | ⟨now, submission, t, rfl, htarget, rfl, rfl⟩
    · exact h.kept hstep hstart (h.behind e hold) (hwf.store.made hold)
    · exact h.made hstep htarget
  · intro job hmem t hasks hkey
    rcases hstep.move.job_before hmem with ⟨old, hold, hnumber, hrouted⟩ |
      ⟨now, submission, t', rfl, htarget, rfl⟩
    · rcases (hnumber ▸ hasks).of_snoc with hearlier | ⟨now, submission, rfl, _⟩
      · rcases h.asked old hold t hearlier hkey with ⟨hunused, hsame⟩
        exact hrouted ▸ ⟨h.kept hstep hstart hunused (hwf.placed old hold), hsame⟩
      · -- the number of a new job is nobody's
        exact absurd hstep.submitted_number.1 (hwf.number_ne hold (Nat.le_refl _))
    · rcases hasks.of_snoc with hearlier | ⟨now', submission', hevent, htarget'⟩
      · exact absurd (h.given _ t hearlier) (Nat.lt_irrefl _)
      · cases hevent
        cases htarget.symm.trans htarget'
        subst hkey
        exact ⟨h.made hstep htarget, rfl, rfl⟩

/-- As long as no job for the key has started, whatever else goes on. -/
theorem Renewed.run (h : f.WellFormed) (hk : f.service.store.environmentAt k = none)
    (hrun : Run f events f')
    (hstart : ∀ n t, Asks f.service.catalogue events n t → t.key = k → .acquired n ∉ events) :
    Renewed f.service.catalogue events k f' := by
  induction hrun with
  | nil => exact .of_absent h hk
  | @snoc events g event g' _ hstep ih =>
      have hbefore : Renewed f.service.catalogue events k g := by
        refine ih fun n t hasks hkey hmem => ?_
        exact hstart n t (hasks.append [event]) hkey (List.mem_append_left _ hmem)
      refine hbefore.step hstep fun n t hasks hkey hevent => ?_
      exact hstart n t (hasks.append [event]) hkey (by simp [hevent])

/-- The job that starts first finds nothing bound. -/
theorem Renewed.evaluation {c : Catalogue} {t : Target} (h : Renewed c events t.key f) {job : Job}
    (hmem : job ∈ f.jobs) (hasks : Asks c events job.number t) :
    f.service.evaluation job.routed = t.evaluation .empty := by
  rcases h.asked job hmem t hasks rfl with ⟨hunused, hinterpreter, hbody⟩
  simp only [Service.evaluation, Target.evaluation, hunused.blank, hinterpreter, hbody]

end Flow
end CodeSessions
