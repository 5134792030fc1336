import CodeSessions.Proofs.Store.Holdings

/-!
# Sweeps — what one drops, and what two drop together

A sweep looks at each session alone.  It is told what is in use by the number of references to the
environment, of which one is that of the store.

- `prune` is what a sweep does to the shelves, and `prune_prune` what two do,
- `sweep_sweep`: if the retention rule does not take back what it gives up, the second sweep makes
  up for the first,
- `evict` is a sweep that counts references, and `isReferred_iff` says what the count tells,
- `evict_exact` puts this together.
-/

namespace CodeSessions

/-! ## The idle rule -/

namespace Retention

variable {limit : Nat} {info : SessionInfo} {now t u : Instant}

/-- A session that is given up was used before, and not just now. -/
theorem lt_of_idle (h : idle limit info now = true) : info.lastUsedAt < now := by
  have hlong := idle_eq_true_iff.mp h
  exact Int.lt_of_le_of_lt (Int.le_add_of_nonneg_right (Int.natCast_nonneg limit)) hlong

/-- What is given up stays given up. -/
theorem idle_of_le (htu : t ≤ u) (h : idle limit info t = true) : idle limit info u = true :=
  idle_eq_true_iff.mpr (Int.lt_of_lt_of_le (idle_eq_true_iff.mp h) htu)

end Retention

namespace Store

/-! ## Shelves -/

/-- The shelves with the sessions that are kept, without the shelves that are left empty. -/
def prune (keep : Session → Bool) (shelves : List (String × List Session)) :
    List (String × List Session) :=
  (shelves.map fun shelf => (shelf.1, shelf.2.filter keep)).filter fun shelf => !shelf.2.isEmpty

theorem prune_cons (keep : Session → Bool) (shelf : String × List Session)
    (shelves : List (String × List Session)) :
    prune keep (shelf :: shelves) =
      if shelf.2.filter keep = [] then prune keep shelves
      else (shelf.1, shelf.2.filter keep) :: prune keep shelves := by
  by_cases hempty : shelf.2.filter keep = [] <;> simp [prune, hempty]

/-- Who keeps less needs no help. -/
theorem prune_prune {keep keep' : Session → Bool}
    (h : ∀ session, keep' session = true → keep session = true)
    (shelves : List (String × List Session)) :
    prune keep' (prune keep shelves) = prune keep' shelves := by
  have hfilter : ∀ sessions : List Session,
      (sessions.filter keep).filter keep' = sessions.filter keep' := by
    intro sessions
    rw [List.filter_filter]
    refine List.filter_congr ?_
    intro session _
    have hkept := h session
    cases hkeep' : keep' session <;> simp_all
  induction shelves with
  | nil => rfl
  | cons shelf shelves ih =>
      rw [prune_cons, prune_cons]
      split
      · -- what is gone already cannot be kept
        rename_i hempty
        have hempty' : shelf.2.filter keep' = [] := by rw [← hfilter, hempty, List.filter_nil]
        rw [ih, if_pos hempty']
      · rw [prune_cons, hfilter, ih]

variable {s : Store} {inUse : EnvironmentId → Bool} {retention : Retention} {t u : Instant}

/-- The interpreters that a sweep leaves are those that have sessions left. -/
theorem keys_sweep (h : s.Tidy) (inUse : EnvironmentId → Bool) (retention : Retention)
    (now : Instant) :
    (s.sweep inUse retention now).1.shelves.keys =
      s.shelves.keys.filter fun i => !((s.sweep inUse retention now).1.sessions i).isEmpty := by
  have hshelves : ∀ shelf ∈ s.shelves.entries,
      (s.sweep inUse retention now).1.sessions shelf.1 =
        shelf.2.filter (isKept inUse retention now) := by
    intro shelf hmem
    rw [sessions_sweep h, sessions_of_mem_shelves h hmem]
  have hkeys : (s.sweep inUse retention now).1.shelves.keys =
      (s.shelves.entries.filter fun shelf =>
        !(shelf.2.filter (isKept inUse retention now)).isEmpty).map Prod.fst := by
    simp [sweep, Table.keys, List.filter_map, Function.comp_def]
  rw [hkeys, Table.keys, List.filter_map]
  congr 1
  refine List.filter_congr ?_
  intro shelf hmem
  rw [Function.comp_apply, hshelves shelf hmem]

/-! ## Two sweeps -/

/-- If the rule gives up at the second time what it gives up at the first, the second sweep alone
would have done. -/
theorem sweep_sweep (h : ∀ info, retention info t = true → retention info u = true) :
    ((s.sweep inUse retention t).1.sweep inUse retention u).1 = (s.sweep inUse retention u).1 ∧
      (s.sweep inUse retention t).2 + ((s.sweep inUse retention t).1.sweep inUse retention u).2 =
        (s.sweep inUse retention u).2 := by
  have hkept : ∀ session, isKept inUse retention u session = true →
      isKept inUse retention t session = true := by
    intro session hkept
    have hgiven := h session.toSessionInfo
    by_contra hdropped
    simp_all [isKept]
  have hstore : ((s.sweep inUse retention t).1.sweep inUse retention u).1 =
      (s.sweep inUse retention u).1 := by
    have hshelves := prune_prune hkept s.shelves.entries
    simp only [prune] at hshelves
    simp only [sweep, hshelves]
  refine ⟨hstore, ?_⟩
  -- both ways the number of sessions falls from and to the same
  have hfirst := sessionCount_sweep s inUse retention t
  have hsecond := sessionCount_sweep (s.sweep inUse retention t).1 inUse retention u
  have hdirect := sessionCount_sweep s inUse retention u
  rw [hstore] at hsecond
  omega

/-- A sweep leaves nothing to do. -/
theorem sweep_sweep_self (s : Store) (inUse : EnvironmentId → Bool) (retention : Retention)
    (now : Instant) :
    (s.sweep inUse retention now).1.sweep inUse retention now =
      ((s.sweep inUse retention now).1, 0) := by
  obtain ⟨hstore, hcount⟩ := @sweep_sweep s inUse retention now now fun _ hgiven => hgiven
  exact Prod.ext hstore (by omega)

/-! ## References -/

/-- Whether somebody besides the store refers to an environment; `held` are the references of
others. -/
def isReferred (s : Store) (held : List EnvironmentId) (e : EnvironmentId) : Bool :=
  decide (1 < s.holdings.count e + held.count e)

/-- A sweep that takes for in use what others refer to. -/
def evict (s : Store) (held : List EnvironmentId) (retention : Retention) (now : Instant) :
    Store × Nat :=
  s.sweep (s.isReferred held) retention now

theorem isReferred_iff (h : s.WellFormed) {held : List EnvironmentId} {e : EnvironmentId}
    (he : e ∈ s.holdings) : s.isReferred held e = true ↔ e ∈ held := by
  rw [isReferred, decide_eq_true_eq, one_lt_count_iff h he]

theorem evict_eq_sweep (h : s.WellFormed) (held : List EnvironmentId) (retention : Retention)
    (now : Instant) :
    s.evict held retention now = s.sweep (fun e => decide (e ∈ held)) retention now := by
  refine sweep_congr ?_ retention now
  intro session hmem
  have he : session.environment ∈ s.holdings :=
    List.mem_cons_of_mem _ (List.mem_map_of_mem hmem)
  exact Bool.eq_iff_iff.mpr ((isReferred_iff h he).trans decide_eq_true_iff.symm)

/-- A sweep drops the sessions that nobody else refers to and that the rule gives up, and no others;
what it keeps stays as it is and where it is, and no interpreter is left without a session.  A
second sweep finds nothing to do.  Under the idle rule, an earlier sweep only does a part of the
work of a later one. -/
theorem evict_exact {s : Store} (h : s.Reachable) (held : List EnvironmentId) :
    (∀ (retention : Retention) (now : Instant),
      let goes : Session → Bool := fun session =>
        decide (session.environment ∉ held) && retention session.toSessionInfo now
      let swept := s.evict held retention now
      (∀ interpreter, swept.1.sessions interpreter =
        (s.sessions interpreter).filter fun session => !goes session) ∧
      swept.1.bindings = s.bindings ∧
      swept.1.shelves.keys = s.shelves.keys.filter (fun i => !(swept.1.sessions i).isEmpty) ∧
      swept.2 = (s.allSessions.filter goes).length ∧
      swept.1.evict held retention now = (swept.1, 0)) ∧
    (∀ info now, Retention.ofLimit none info now = false) ∧
    ∀ limit,
      (∀ info now, Retention.ofLimit (some limit) info now = true ↔
        (limit : Int) < now - info.lastUsedAt) ∧
      (∀ (info : SessionInfo) (now : Instant), now ≤ info.lastUsedAt →
        Retention.ofLimit (some limit) info now = false) ∧
      ∀ t u : Instant, t ≤ u →
        let first := s.evict held (.ofLimit (some limit)) t
        let second := first.1.evict held (.ofLimit (some limit)) u
        let direct := s.evict held (.ofLimit (some limit)) u
        second.1 = direct.1 ∧ first.2 + second.2 = direct.2 := by
  have hs : s.WellFormed := h.wellFormed
  have hswept : ∀ retention now, (s.evict held retention now).1.WellFormed :=
    fun retention now => hs.sweep _ retention now
  -- both sweeps find the same in use, since the handles are the same
  have hagain : ∀ retention t u, (s.evict held retention t).1.evict held retention u =
      (s.sweep (fun e => decide (e ∈ held)) retention t).1.sweep
        (fun e => decide (e ∈ held)) retention u := by
    intro retention t u
    rw [evict_eq_sweep (hswept retention t), evict_eq_sweep hs]
  refine ⟨?_, fun _ _ => rfl, ?_⟩
  · intro retention now goes swept
    have hgoes : ∀ session, goes session =
        !isKept (fun e => decide (e ∈ held)) retention now session := by
      intro session
      simp [goes, isKept]
    have hsweep : swept = s.sweep (fun e => decide (e ∈ held)) retention now :=
      evict_eq_sweep hs held retention now
    refine ⟨?_, rfl, keys_sweep hs.toTidy _ retention now, ?_, ?_⟩
    · intro interpreter
      simp only [hsweep, sessions_sweep hs.toTidy, hgoes, Bool.not_not]
    · rw [hsweep, ← List.countP_eq_length_filter, funext hgoes]
      rfl
    · rw [hagain, sweep_sweep_self, hsweep]
  · intro limit
    refine ⟨fun info now => decide_eq_true_iff, ?_, ?_⟩
    · intro info now hfuture
      exact Bool.eq_false_iff.mpr fun hgiven => Int.not_lt.mpr hfuture (Retention.lt_of_idle hgiven)
    · intro t u htu first second direct
      have hlasts : ∀ info, Retention.ofLimit (some limit) info t = true →
          Retention.ofLimit (some limit) info u = true :=
        fun _ hgiven => Retention.idle_of_le htu hgiven
      have hfirst : first = s.sweep (fun e => decide (e ∈ held)) (.ofLimit (some limit)) t :=
        evict_eq_sweep hs held _ t
      have hdirect : direct = s.sweep (fun e => decide (e ∈ held)) (.ofLimit (some limit)) u :=
        evict_eq_sweep hs held _ u
      have hsecond : second = _ := hagain (.ofLimit (some limit)) t u
      rw [hsecond, hfirst, hdirect]
      exact sweep_sweep hlasts

/-- One session is given up at 12, another one at 30, and a third one is referred to. -/
theorem evict_exact_referred :
    let calls : List Call :=
      [.lookup 0 "python" (some "a"), .lookup 10 "python" (some "b"),
        .lookup 0 "jython" (some "c")]
    let s := Store.empty.after calls
    let first := s.evict [3] (.ofLimit (some 5)) 12
    let second := first.1.evict [3] (.ofLimit (some 5)) 30
    let direct := s.evict [3] (.ofLimit (some 5)) 30
    s.Reachable ∧ (12 : Instant) ≤ 30 ∧
      (first.1.sessions "python").map (fun session => session.id) = ["b"] ∧
      direct.1.shelves.keys = ["jython"] ∧ first.2 = 1 ∧ direct.2 = 2 ∧
      second.1 = direct.1 ∧ first.2 + second.2 = direct.2 := by
  intro calls s first second direct
  have hreachable : s.Reachable := ⟨calls, rfl⟩
  have hle : (12 : Instant) ≤ 30 := by decide
  exact ⟨hreachable, hle, by decide, by decide, by decide, by decide,
    ((evict_exact hreachable [3]).2.2 5).2.2 12 30 hle⟩

end Store
end CodeSessions
