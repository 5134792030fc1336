import CodeSessions.Proofs.Service.Requests

/-!
# Idleness — when a session counts as unused

A session notes the time of its last lookup.  Nothing is noted while an evaluation runs or when it
ends, so under the idle rule a sweep keeps a session as long as a request is under way, and else for
the given time after the last lookup, however long the evaluation has taken since.

- `Flow.TimedRun` are runs under a clock that does not run backwards, `Flow.lookups` the times at
  which a key was looked up,
- `Flow.Noted` is the invariant, `Noted.step` the step and `TimedRun.noted` the run: the time that a
  session has noted is that of the last lookup,
- `sessionAt_sweep_eq_none_iff` says exactly when a sweep drops a session,
- `sessionAt_sweep_hold` and `sessionAt_sweep_release` say the same of a session that is held for
  another reason than a request, and let go of,
- `not_kept_after_evaluation`: it can be dropped right after the end of an evaluation.
-/

namespace CodeSessions

/-- A session that has just been looked up has noted it. -/
theorem Store.lastUsedAt_lookup_self {s : Store} {now : Instant} {interpreter : String}
    {session? : Option String} {session : Session}
    (h : (s.lookup now interpreter session?).1.sessionAt (.ofCell interpreter session?) =
      some session) : session.lastUsedAt = now := by
  rcases lookup_cases s now interpreter session? with
    ⟨hkey, hs⟩ | ⟨id, found, _, hkey, hfind, hs⟩ | ⟨id, _, hkey, hfind, hs⟩
  · simp [hs, hkey] at h
  · have hfound : s.sessionAt (.session interpreter id) = some found := hfind
    simp only [hs, hkey, sessionAt_touch, hfound, if_true, Option.map_some, Option.some.injEq] at h
    rw [← h]
  · simp only [hs, hkey, sessionAt_create hfind, if_true, Option.some.injEq] at h
    rw [← h]

namespace Flow

/-! ## Runs with times -/

/-- The time that the clock shows to an event. -/
def Event.time? : Event → Option Instant
  | .submitted _ now _ | .refused now _ _ | .swept now _ => some now
  | _ => none

/-- A run in which every event has a time, and no event an earlier one than those before it. -/
inductive TimedRun (f : Flow) : List (Instant × Event) → Flow → Prop
  | nil : TimedRun f [] f
  | snoc {log g now event g'} (hrun : TimedRun f log g) (hclock : ∀ entry ∈ log, entry.1 ≤ now)
      (htime : ∀ t ∈ event.time?, t = now) (hstep : Step g event g') :
      TimedRun f (log ++ [(now, event)]) g'

/-- The time of an event that looks a key up. -/
def Event.lookup? (c : Catalogue) (k : Key) : Event → Option Instant
  | .submitted _ now submission => if c.keyOf? submission = some k then some now else none
  | _ => none

/-- The times at which a key was looked up. -/
def lookups (c : Catalogue) (log : List (Instant × Event)) (k : Key) : List Instant :=
  log.filterMap fun entry => entry.2.lookup? c k

/-- An evaluation has started by a given time, and not ended yet. -/
def RunningAt (log : List (Instant × Event)) (n : Nat) (t : Instant) : Prop :=
  (∃ start ≤ t, (start, .acquired n) ∈ log) ∧
    ∀ last reply?, (last, .ended n reply?) ∈ log → t < last

variable {service : Service} {log : List (Instant × Event)} {f f' : Flow} {event : Event}
  {now : Instant} {k : Key}

theorem TimedRun.run (h : TimedRun f log f') : Run f (log.map Prod.snd) f' := by
  induction h with
  | nil => exact .nil
  | snoc _ _ _ hstep ih => simpa using ih.snoc hstep

/-- Whoever reads the clock reads the time of the event. -/
theorem TimedRun.times (h : TimedRun f log f') :
    ∀ entry ∈ log, ∀ t ∈ entry.2.time?, t = entry.1 := by
  induction h with
  | nil => simp
  | snoc _ _ htime _ ih =>
      intro entry hmem
      rcases List.mem_append.mp hmem with hold | hnew
      · exact ih entry hold
      · rcases List.mem_singleton.mp hnew with rfl
        exact htime

theorem lookups_snoc (c : Catalogue) (log : List (Instant × Event)) (entry : Instant × Event)
    (k : Key) : lookups c (log ++ [entry]) k = lookups c log k ++ (entry.2.lookup? c k).toList := by
  rcases hlookup : entry.2.lookup? c k with _ | t <;> simp [lookups, hlookup]

/-! ## What sessions note -/

/-- Every session has noted its last lookup. -/
def Noted (service : Service) (log : List (Instant × Event)) (store : Store) : Prop :=
  ∀ k session, store.sessionAt k = some session →
    session.lastUsedAt ∈ lookups service.catalogue log k ∧
      ∀ t ∈ lookups service.catalogue log k, t ≤ session.lastUsedAt

theorem Noted.mono {store store' : Store} (h : Noted service log store)
    (hsessions : ∀ k session, store'.sessionAt k = some session →
      store.sessionAt k = some session)
    (hlookup : ∀ k, event.lookup? service.catalogue k = none) :
    Noted service (log ++ [(now, event)]) store' := by
  intro k session hk
  have hsame : lookups service.catalogue (log ++ [(now, event)]) k =
      lookups service.catalogue log k := by
    simp [lookups_snoc, hlookup k]
  rw [hsame]
  exact h k session (hsessions k session hk)

/-- Looking a key up is noted by its session and by no other. -/
theorem Noted.lookup {store : Store} (h : Noted service log store)
    (hclock : ∀ k, ∀ t ∈ lookups service.catalogue log k, t ≤ now) {n : Nat}
    {submission : Submission} {t : Target}
    (htarget : service.catalogue.target? submission = some t) :
    Noted service (log ++ [(now, .submitted n now submission)])
      (store.lookup now t.name t.session).1 := by
  intro k session hk
  rw [lookups_snoc]
  by_cases hself : k = .ofCell t.name t.session
  · subst hself
    have hnow : session.lastUsedAt = now := Store.lastUsedAt_lookup_self hk
    have hlookup : Event.lookup? service.catalogue (.ofCell t.name t.session)
        (.submitted n now submission) = some now := by
      simp [Event.lookup?, Catalogue.keyOf?, htarget, Target.key]
    rw [hlookup, hnow]
    refine ⟨by simp, ?_⟩
    intro u hmem
    rcases List.mem_append.mp hmem with hold | hnew
    · exact hclock _ u hold
    · exact Int.le_of_eq (by simpa using hnew)
  · have hold : store.sessionAt k = some session := by
      rw [← Store.sessionAt_lookup_of_ne hself now]
      exact hk
    have hother : Event.lookup? service.catalogue k (.submitted n now submission) = none := by
      have hne : ¬ t.key = k := fun heq => hself heq.symm
      simp [Event.lookup?, Catalogue.keyOf?, htarget, hne]
    rw [hother]
    simpa using h k session hold

theorem Noted.step (h : Noted service log f.service.store)
    (htracked : Tracked service (log.map Prod.snd) f)
    (hclock : ∀ k, ∀ t ∈ lookups service.catalogue log k, t ≤ now)
    (htime : ∀ t ∈ event.time?, t = now) {store : Store} (hchange : Change f event store) :
    Noted service (log ++ [(now, event)]) store := by
  cases hchange with
  | @lookedUp seen submission t htarget =>
      have hnow : seen = now := htime seen rfl
      subst hnow
      exact h.lookup hclock (htracked.catalogue ▸ htarget)
  | written _ _ =>
      refine h.mono ?_ (fun _ => rfl)
      intro k session hk
      simpa using hk
  | removed interpreter id found =>
      refine h.mono ?_ (fun _ => rfl)
      intro k session hk
      rw [Store.sessionAt_remove] at hk
      split at hk
      · cases hk
      · exact hk
  | swept _ _ =>
      refine h.mono ?_ (fun _ => rfl)
      intro k session hk
      rw [Store.sessionAt_sweep htracked.wellFormed.store.toTidy] at hk
      exact (Option.filter_eq_some_iff.mp hk).1
  | none hsubmission _ =>
      refine h.mono (fun _ _ hk => hk) ?_
      intro k
      cases event with
      | submitted n _ _ => simpa [Event.submission?] using hsubmission n
      | _ => rfl

theorem TimedRun.le_of_mem_lookups (hrun : TimedRun f log f')
    (hclock : ∀ entry ∈ log, entry.1 ≤ now) {c : Catalogue} {t : Instant}
    (hmem : t ∈ lookups c log k) : t ≤ now := by
  rcases List.mem_filterMap.mp hmem with ⟨⟨seen, event⟩, hentry, hlookup⟩
  cases event with
  | submitted n used submission =>
      have hused : used = t := by
        simp only [Event.lookup?] at hlookup
        split at hlookup
        · simpa using hlookup
        · cases hlookup
      have hseen : used = seen := hrun.times _ hentry used rfl
      exact (hused.symm.trans hseen) ▸ hclock _ hentry
  | _ => cases hlookup

/-- In every run from a new store each session has noted its last lookup. -/
theorem TimedRun.noted (hstore : service.store = .empty) (hrun : TimedRun { service } log f) :
    Noted service log f.service.store := by
  have hservice : service.store.WellFormed := hstore ▸ Store.WellFormed.empty
  induction hrun with
  | nil =>
      intro k session hk
      simp only [hstore] at hk
      cases k <;> cases hk
  | snoc hrun hclock htime hstep ih =>
      exact ih.step (.run hservice hrun.run) (fun _ _ hmem => hrun.le_of_mem_lookups hclock hmem)
        htime hstep.change.1

/-! ## What the idle rule sweeps away -/

theorem sessionAt_sweep_eq_none (h : f.service.store.Tidy) {session : Session}
    (hk : f.service.store.sessionAt k = some session) (now : Instant) :
    (f.sweep now).1.service.store.sessionAt k = none ↔
      f.inUse session.environment ≠ true ∧
        f.service.retention session.toSessionInfo now = true := by
  have hsweep : (f.sweep now).1.service.store.sessionAt k =
      (f.service.store.sessionAt k).filter (Store.isKept f.inUse f.service.retention now) :=
    Store.sessionAt_sweep h f.inUse f.service.retention now k
  rw [hsweep, hk]
  simp [Option.filter, Store.isKept]

/-- Under the idle rule a sweep drops a session exactly if no request under way refers to it and all
its lookups are longer ago than the limit. -/
theorem sessionAt_sweep_eq_none_iff {service : Service} {limit : Nat}
    (hstore : service.store = .empty) (hretention : service.retention = .idle limit)
    {log : List (Instant × Event)} {f : Flow} (hrun : TimedRun { service } log f) {k : Key}
    {session : Session} (hk : f.service.store.sessionAt k = some session) (now : Instant) :
    (f.sweep now).1.service.store.sessionAt k = none ↔
      (∀ n, UnderWay (log.map Prod.snd) n → f.environmentOf n ≠ some session.environment) ∧
        ∀ t ∈ lookups service.catalogue log k, t + (limit : Int) < now := by
  have hservice : service.store.WellFormed := hstore ▸ Store.WellFormed.empty
  have htracked : Tracked service (log.map Prod.snd) f := .run hservice hrun.run
  rcases hrun.noted hstore k session hk with ⟨hlast, hlatest⟩
  have hrule : f.service.retention = .idle limit := htracked.retention.trans hretention
  have hdropped := sessionAt_sweep_eq_none htracked.wellFormed.store.toTidy hk now
  rw [hrule] at hdropped
  -- the last lookup is longer ago than the limit if and only if all of them are
  have hidle : Retention.idle limit session.toSessionInfo now = true ↔
      ∀ t ∈ lookups service.catalogue log k, t + (limit : Int) < now := by
    rw [Retention.idle_eq_true_iff]
    constructor
    · intro hlong t hmem
      exact Int.lt_of_le_of_lt (Int.add_le_add_right (hlatest t hmem) _) hlong
    · intro hlong
      exact hlong _ hlast
  rw [hdropped, hidle, Ne, htracked.inUse_iff]
  simp only [not_exists, not_and]

/-! ## Handles -/

/-- A session whose environment somebody holds is kept by every sweep. -/
theorem sessionAt_sweep_hold (h : f.service.store.Tidy) (now : Instant) (interpreter : String)
    (session? : Option String) (later : Instant) :
    ((f.hold now interpreter session?).sweep later).1.service.store.sessionAt
        (.ofCell interpreter session?) =
      (f.hold now interpreter session?).service.store.sessionAt (.ofCell interpreter session?) := by
  have hheld : (f.hold now interpreter session?).inUse
      (f.service.store.lookup now interpreter session?).2 = true := by
    simp [hold, inUse]
  exact sessionAt_sweep_of_inUse (h.lookup now interpreter session?)
    (Store.environmentAt_lookup_self _ now interpreter session?) hheld later

/-- Letting go of the handles is not noted: a session that no request refers to then can be dropped
as soon as it has been looked up for longer than the limit. -/
theorem sessionAt_sweep_release (h : f.service.store.Tidy) {limit : Nat}
    (hrule : f.service.retention = .idle limit) {interpreter : String} {session? : Option String}
    {session : Session}
    (hk : (f.hold now interpreter session?).service.store.sessionAt
      (.ofCell interpreter session?) = some session) (later : Instant) :
    ((f.hold now interpreter session?).release.sweep later).1.service.store.sessionAt
        (.ofCell interpreter session?) = none ↔
      (∀ job ∈ f.jobs, job.routed.environment ≠ session.environment) ∧
        now + (limit : Int) < later := by
  have hlast : session.lastUsedAt = now := Store.lastUsedAt_lookup_self hk
  have hdropped := sessionAt_sweep_eq_none (f := (f.hold now interpreter session?).release)
    (h.lookup now interpreter session?) hk later
  have hretention : (f.hold now interpreter session?).release.service.retention = .idle limit :=
    hrule
  rw [hdropped, hretention, Retention.idle_eq_true_iff, hlast]
  simp [release, hold, inUse]

/-! ## A long evaluation -/

/-- A service that gives sessions up after 60 milliseconds. -/
def forgetful : Service :=
  { catalogue := Catalogue.empty.register ["m"] fun _ _ => ⟨[], none⟩, retention := .idle 60 }

/-- A request that is looked up at 0, and whose evaluation ends at 100. -/
def longEvaluation : List (Instant × Event) :=
  [(0, .submitted 0 0 ⟨"%m x", some "1"⟩), (0, .acquired 0),
    (100, .ended 0 (some (Reply.ofOutcome .normalized (.ok ""))))]

theorem exists_longEvaluation :
    ∃ f session, TimedRun { service := forgetful } longEvaluation f ∧
      f.service.store.sessionAt (.session "m" "1") = some session ∧
      (f.sweep 101).1.service.store.sessionAt (.session "m" "1") = none :=
  ⟨_, _, .snoc (.snoc (.snoc .nil (by simp) (by simp [Event.time?]) (.submit rfl)) (by simp)
    (by simp [Event.time?]) (.start rfl)) (by simp) (by simp [Event.time?]) (.finish rfl), rfl, rfl⟩

/-- One millisecond after the end of the evaluation the session is dropped: its only lookup is
longer ago than the limit. -/
theorem sessionAt_sweep_after_long_evaluation :
    forgetful.store = .empty ∧ forgetful.retention = .idle 60 ∧
      ∃ f session, TimedRun { service := forgetful } longEvaluation f ∧
        f.service.store.sessionAt (.session "m" "1") = some session ∧
        (∀ n, UnderWay (longEvaluation.map Prod.snd) n →
          f.environmentOf n ≠ some session.environment) ∧
        ∀ t ∈ lookups forgetful.catalogue longEvaluation (.session "m" "1"), t + 60 < 101 := by
  rcases exists_longEvaluation with ⟨f, session, hrun, hk, hdropped⟩
  exact ⟨rfl, rfl, f, session, hrun, hk,
    (sessionAt_sweep_eq_none_iff rfl rfl hrun hk 101).mp hdropped⟩

/-- It is not so that sessions are kept for as long as the limit after the evaluations on them. -/
theorem not_kept_after_evaluation :
    ¬ ∀ (service : Service) (limit : Nat) (log : List (Instant × Event)) (f : Flow) (k : Key)
        (session : Session) (now : Instant),
      service.store = .empty → service.retention = .idle limit → TimedRun { service } log f →
      (∀ entry ∈ log, entry.1 ≤ now) → f.service.store.sessionAt k = some session →
      (f.sweep now).1.service.store.sessionAt k = none →
      ∀ n t, keyOf service.catalogue (log.map Prod.snd) n = some k → RunningAt log n t →
        t ≤ now - (limit : Int) := by
  intro hkept
  rcases exists_longEvaluation with ⟨f, session, hrun, hk, hdropped⟩
  have hclock : ∀ entry ∈ longEvaluation, entry.1 ≤ 101 := by decide
  have hkey :
      keyOf forgetful.catalogue (longEvaluation.map Prod.snd) 0 = some (.session "m" "1") := by
    rfl
  -- it ran at 99, which is less than 60 before 101
  have hrunning : RunningAt longEvaluation 0 99 := by
    refine ⟨⟨0, by decide, by simp [longEvaluation]⟩, ?_⟩
    intro last reply? hmem
    have hlast : last = 100 := by simp_all [longEvaluation]
    simp [hlast]
  have hle :=
    hkept forgetful 60 longEvaluation f (.session "m" "1") session 101 rfl rfl hrun hclock hk
    hdropped 0 99 hkey hrunning
  exact absurd hle (by decide)

end Flow
end CodeSessions
