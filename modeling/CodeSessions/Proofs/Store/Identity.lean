import CodeSessions.Proofs.Store.WellFormed

/-!
# Identity — when two lookups give the same environment

Two lookups of one store, with any calls between them, give the same environment if both are
sessionless, or if both name the same session and nothing between them dropped it; otherwise they
give different ones.

- `Store.Dropped` says that a sequence of calls drops a session,
- `Store.Gone` says that an environment is behind no key any more, which no call changes,
- `keeps_or_drops` follows the environment of a key along a run,
- `lookup_identity` is the statement about whole runs from a new store.

What lookups give is compared as numbers of environments.  That these stand for different bindings
is the business of `Store.bindings`: an environment keeps its own until somebody writes to it.
-/

namespace CodeSessions

/-- An absent and an empty id both name no session. -/
def Sessionless (session : Option String) : Prop :=
  session = none ∨ session = some ""

theorem Key.ofCell_eq_shared_iff {interpreter : String} {session : Option String} :
    Key.ofCell interpreter session = .shared ↔ Sessionless session := by
  cases session with
  | none => simp [Key.ofCell, Sessionless]
  | some id => by_cases hid : id = "" <;> simp [Key.ofCell, Sessionless, hid]

theorem Key.ofCell_eq_session_iff {interpreter other id : String} {session : Option String} :
    Key.ofCell interpreter session = .session other id ↔
      interpreter = other ∧ session = some id ∧ id ≠ "" := by
  cases session with
  | none => simp [Key.ofCell]
  | some given =>
      by_cases hgiven : given = ""
      · -- the empty id has the shared key, which is the key of no session
        have hshared : Key.ofCell interpreter (some given) = .shared := by
          simp [Key.ofCell, hgiven]
        constructor
        · intro h
          cases hshared.symm.trans h
        · rintro ⟨_, hsome, hid⟩
          injection hsome with hsome
          exact absurd (hsome.symm.trans hgiven) hid
      · simp only [Key.ofCell, String.isEmpty_iff, hgiven, if_false]
        constructor
        · intro h
          injection h with hi hid
          exact ⟨hi, congrArg some hid, hid ▸ hgiven⟩
        · rintro ⟨hi, hsome, _⟩
          injection hsome with hsome
          simp only [hi, hsome]

namespace Store

variable {s : Store} {k : Key} {e : EnvironmentId}

/-! ## One call -/

/-- One of the calls finds a session behind the key and leaves none there. -/
def Dropped (s : Store) (k : Key) : List Call → Prop
  | [] => False
  | call :: calls =>
      (s.environmentAt k ≠ none ∧ (call.run s).environmentAt k = none) ∨
        (call.run s).Dropped k calls

/-- An environment that has been made and is behind no key. -/
def Gone (s : Store) (e : EnvironmentId) : Prop :=
  e < s.nextEnvironment ∧ ∀ k, s.environmentAt k ≠ some e

/-- A call leaves the environment of a key as it is, drops it, or makes a new one where there was
none. -/
theorem environmentAt_run (h : s.WellFormed) (call : Call) (k : Key) :
    (call.run s).environmentAt k = s.environmentAt k ∨ (call.run s).environmentAt k = none ∨
      (s.environmentAt k = none ∧ (call.run s).environmentAt k = some s.nextEnvironment) := by
  cases call with
  | lookup now interpreter session =>
      rcases hold : s.environmentAt k with _ | e
      · by_cases hself : k = .ofCell interpreter session
        · -- the key that is looked up had nothing behind it and gets a new environment
          subst hself
          have hfound : (s.lookup now interpreter session).2 = s.nextEnvironment := by
            simpa [hold] using lookup_environment s now interpreter session
          have hnow := environmentAt_lookup_self s now interpreter session
          simp only [hfound] at hnow
          right; right
          exact ⟨rfl, hnow⟩
        · left
          exact (environmentAt_lookup_of_ne hself now).trans hold
      · left
        exact environmentAt_lookup_of_some hold now interpreter session
  | remove interpreter id =>
      by_cases hself : k = .session interpreter id
      · right; left
        subst hself
        simp [Call.run, sessionAt_remove]
      · left
        refine environmentAt_congr ?_
        simp [Call.run, sessionAt_remove, hself]
  | sweep inUse retention now =>
      cases k with
      | shared => exact .inl rfl
      | session interpreter id =>
          have hsweep := sessionAt_sweep h.toTidy inUse retention now (.session interpreter id)
          simp only [Call.run, environmentAt_session, hsweep]
          rcases s.sessionAt (.session interpreter id) with _ | session
          · exact .inl rfl
          · by_cases hkept : isKept inUse retention now session = true
            · left
              simp [Option.filter, hkept]
            · right; left
              simp [Option.filter, hkept]
  | write e env =>
      left
      by_cases he : e < s.nextEnvironment <;> simp [Call.run, he]

/-- Only two kinds of calls drop a session: a removal that names it, and a sweep that finds it
neither in use nor worth keeping. -/
theorem environmentAt_run_eq_none_iff (h : s.WellFormed) {interpreter id : String}
    {session : Session} (hsession : s.find? interpreter id = some session) (call : Call) :
    (call.run s).environmentAt (.session interpreter id) = none ↔
      call = .remove interpreter id ∨
      ∃ inUse retention now, call = .sweep inUse retention now ∧
        isKept inUse retention now session = false := by
  have hk : s.sessionAt (.session interpreter id) = some session := hsession
  constructor
  · intro hnone
    have hnone : (call.run s).sessionAt (.session interpreter id) = none := by
      simpa using hnone
    cases call with
    | lookup now other session? =>
        -- a lookup takes no session away
        have hold : s.environmentAt (.session interpreter id) = some session.environment := by
          simp [hk]
        have hkept := environmentAt_lookup_of_some hold now other session?
        have hnone : (s.lookup now other session?).1.sessionAt (.session interpreter id) = none :=
          hnone
        simp [hnone] at hkept
    | remove other otherId =>
        left
        simp only [Call.run, sessionAt_remove] at hnone
        split at hnone
        · rename_i hself
          injection hself with hi hid
          simp only [hi, hid]
        · cases hk.symm.trans hnone
    | sweep inUse retention now =>
        right
        refine ⟨inUse, retention, now, rfl, ?_⟩
        simp only [Call.run, sessionAt_sweep h.toTidy, hk] at hnone
        simpa [Option.filter] using hnone
    | write e env =>
        by_cases he : e < s.nextEnvironment <;> simp [Call.run, he, hk] at hnone
  · rintro (hremove | ⟨inUse, retention, now, hsweep, hkept⟩)
    · simp [hremove, Call.run, sessionAt_remove]
    · simp [hsweep, Call.run, sessionAt_sweep h.toTidy, hk, Option.filter, hkept]

theorem nextEnvironment_le_run (s : Store) (call : Call) :
    s.nextEnvironment ≤ (call.run s).nextEnvironment := by
  cases call with
  | lookup now interpreter session => exact nextEnvironment_le_lookup s now interpreter session
  | remove interpreter id => simp [Call.run]
  | sweep inUse retention now => simp [Call.run]
  | write e env => by_cases he : e < s.nextEnvironment <;> simp [Call.run, he, setBindings]

/-- Numbers of environments are not used again. -/
theorem Gone.run (h : s.WellFormed) (hgone : s.Gone e) (call : Call) : (call.run s).Gone e := by
  have hlt : e < (call.run s).nextEnvironment := by
    calc
      e < s.nextEnvironment := hgone.1
      _ ≤ (call.run s).nextEnvironment := nextEnvironment_le_run s call
  refine ⟨hlt, ?_⟩
  intro k hk
  rcases environmentAt_run h call k with hsame | hnone | ⟨_, hnew⟩
  · exact hgone.2 k (hsame ▸ hk)
  · cases hnone.symm.trans hk
  · -- a new environment has a number that no environment has had
    have hnext : s.nextEnvironment = e := by simpa using hnew.symm.trans hk
    exact absurd hgone.1 (hnext ▸ Nat.lt_irrefl _)

/-- A call that drops a session takes its environment away for good. -/
theorem gone_of_dropped (h : s.WellFormed) (hk : s.environmentAt k = some e) (call : Call)
    (hdropped : (call.run s).environmentAt k = none) : (call.run s).Gone e := by
  have hlt : e < (call.run s).nextEnvironment := by
    calc
      e < s.nextEnvironment := h.made hk
      _ ≤ (call.run s).nextEnvironment := nextEnvironment_le_run s call
  refine ⟨hlt, ?_⟩
  intro l hl
  rcases environmentAt_run h call l with hsame | hnone | ⟨_, hnew⟩
  · -- no other key had the environment, and the key itself has lost it
    have hlk : l = k := h.separate (hsame ▸ hl) hk
    subst hlk
    cases hdropped.symm.trans hl
  · cases hnone.symm.trans hl
  · have hnext : s.nextEnvironment = e := by simpa using hnew.symm.trans hl
    exact absurd (h.made hk) (hnext ▸ Nat.lt_irrefl _)

/-! ## Sequences of calls -/

theorem Gone.after (h : s.WellFormed) (hgone : s.Gone e) (calls : List Call) :
    (s.after calls).Gone e := by
  induction calls generalizing s with
  | nil => exact hgone
  | cons call calls ih => exact ih (h.run call) (hgone.run h call)

/-- The environment of a key stays behind it until it is dropped, and is gone from then on. -/
theorem keeps_or_drops (h : s.WellFormed) (hk : s.environmentAt k = some e) (calls : List Call) :
    (¬ s.Dropped k calls ∧ (s.after calls).environmentAt k = some e) ∨
      (s.Dropped k calls ∧ (s.after calls).Gone e) := by
  -- by induction on the calls: while the key keeps its environment the rest of the run decides, and
  -- once it has lost it no call brings it back
  induction calls generalizing s with
  | nil => exact .inl ⟨not_false, hk⟩
  | cons call calls ih =>
      rcases environmentAt_run h call k with hsame | hnone | ⟨hnew, _⟩
      · have hk' : (call.run s).environmentAt k = some e := hsame.trans hk
        rcases ih (h.run call) hk' with ⟨hkept, hafter⟩ | ⟨hdropped, hafter⟩
        · left
          refine ⟨?_, hafter⟩
          rintro (⟨_, hnone⟩ | hlater)
          · cases hk'.symm.trans hnone
          · exact hkept hlater
        · exact .inr ⟨.inr hdropped, hafter⟩
      · right
        have hgone := (gone_of_dropped h hk call hnone).after (h.run call) calls
        refine ⟨.inl ⟨?_, hnone⟩, hgone⟩
        simp [hk]
      · cases hk.symm.trans hnew

/-- The environments that the lookups among the calls give, in order. -/
def handedOut (s : Store) : List Call → List EnvironmentId
  | [] => []
  | .lookup now interpreter session :: calls =>
      (s.lookup now interpreter session).2 ::
        (s.lookup now interpreter session).1.handedOut calls
  | call :: calls => (call.run s).handedOut calls

theorem nextEnvironment_le_after (s : Store) (calls : List Call) :
    s.nextEnvironment ≤ (s.after calls).nextEnvironment := by
  induction calls generalizing s with
  | nil => exact Nat.le_refl _
  | cons call calls ih =>
      calc
        s.nextEnvironment ≤ (call.run s).nextEnvironment := nextEnvironment_le_run s call
        _ ≤ ((call.run s).after calls).nextEnvironment := ih (call.run s)

theorem handedOut_lt (h : s.WellFormed) (calls : List Call) (he : e ∈ s.handedOut calls) :
    e < (s.after calls).nextEnvironment := by
  induction calls generalizing s with
  | nil => cases he
  | cons call calls ih =>
      -- only lookups add to the list
      cases call with
      | lookup now interpreter session =>
          rcases List.mem_cons.mp he with hself | hrest
          · -- the looked-up environment is behind its key by then, so it has been made
            have hnow := environmentAt_lookup_self s now interpreter session
            calc
              e < (s.lookup now interpreter session).1.nextEnvironment :=
                (h.lookup now interpreter session).made (hself ▸ hnow)
              _ ≤ ((s.lookup now interpreter session).1.after calls).nextEnvironment :=
                nextEnvironment_le_after _ calls
          · exact ih (h.lookup now interpreter session) hrest
      | remove interpreter id => exact ih (h.run (.remove interpreter id)) he
      | sweep inUse retention now => exact ih (h.run (.sweep inUse retention now)) he
      | write e' env => exact ih (h.run (.write e' env)) he

/-- Only a write to it changes the bindings of an environment. -/
theorem bindings_after (s : Store) (calls : List Call) (e : EnvironmentId) :
    (∀ env, Call.write e env ∉ calls) → (s.after calls).bindings e = s.bindings e := by
  induction calls generalizing s with
  | nil =>
      intro _
      rfl
  | cons call calls ih =>
      intro hunwritten
      have hrest : ∀ env, Call.write e env ∉ calls := by
        intro env hmem
        exact hunwritten env (List.mem_cons_of_mem _ hmem)
      -- no call but a write touches any bindings at all
      have hcall : (call.run s).bindings e = s.bindings e := by
        cases call with
        | lookup now interpreter session => simp [Call.run]
        | remove interpreter id => simp [Call.run]
        | sweep inUse retention now => simp [Call.run]
        | write e' env =>
            have hne : e' ≠ e := by
              intro heq
              exact hunwritten env (by simp [heq])
            by_cases he' : e' < s.nextEnvironment <;> simp [Call.run, he', hne]
      exact (ih (call.run s) hrest).trans hcall

/-! ## Whole runs -/

/-- Two lookups with calls between them. -/
theorem lookup_eq_lookup_iff (h : s.WellFormed) (between : List Call) (now₁ now₂ : Instant)
    (interpreter₁ interpreter₂ : String) (session₁ session₂ : Option String) :
    (s.lookup now₁ interpreter₁ session₁).2 =
        (((s.lookup now₁ interpreter₁ session₁).1.after between).lookup now₂ interpreter₂
          session₂).2 ↔
      Key.ofCell interpreter₁ session₁ = Key.ofCell interpreter₂ session₂ ∧
        ¬ (s.lookup now₁ interpreter₁ session₁).1.Dropped (.ofCell interpreter₁ session₁)
          between := by
  let first := s.lookup now₁ interpreter₁ session₁
  let second := (first.1.after between).lookup now₂ interpreter₂ session₂
  have hfirst : first.1.WellFormed := h.lookup now₁ interpreter₁ session₁
  have hsecond : second.1.WellFormed :=
    (hfirst.after between).lookup now₂ interpreter₂ session₂
  have hbehind₁ : first.1.environmentAt (.ofCell interpreter₁ session₁) = some first.2 :=
    environmentAt_lookup_self s now₁ interpreter₁ session₁
  have hbehind₂ : second.1.environmentAt (.ofCell interpreter₂ session₂) = some second.2 :=
    environmentAt_lookup_self (first.1.after between) now₂ interpreter₂ session₂
  -- between the lookups the first environment is kept behind its key, or gone for good
  have hrun := keeps_or_drops hfirst hbehind₁ between
  constructor
  · intro (heq : first.2 = second.2)
    rcases hrun with ⟨hkept, hafter⟩ | ⟨_, hgone⟩
    · refine ⟨?_, hkept⟩
      -- if the keys differed, the second lookup would leave the first key alone
      by_cases hkey : Key.ofCell interpreter₁ session₁ = .ofCell interpreter₂ session₂
      · exact hkey
      · have hstill : second.1.environmentAt (.ofCell interpreter₁ session₁) = some first.2 :=
          (environmentAt_lookup_of_ne hkey now₂).trans hafter
        exact hsecond.separate hstill (heq ▸ hbehind₂)
    · -- a dropped environment is not behind the key of the second lookup, or behind any other
      have hgone' : second.1.Gone first.2 :=
        hgone.run (hfirst.after between) (.lookup now₂ interpreter₂ session₂)
      exact absurd (heq ▸ hbehind₂) (hgone'.2 _)
  · rintro ⟨hkey, hkept⟩
    rcases hrun with ⟨_, hafter⟩ | ⟨hdropped, _⟩
    · have hfound : second.2 =
          ((first.1.after between).environmentAt (.ofCell interpreter₂ session₂)).getD
            (first.1.after between).nextEnvironment :=
        lookup_environment (first.1.after between) now₂ interpreter₂ session₂
      simp only [← hkey, hafter, Option.getD_some] at hfound
      exact hfound.symm
    · exact absurd hdropped hkept

/-- A sequence of calls never drops the shared environment. -/
theorem not_dropped_shared (s : Store) (calls : List Call) : ¬ s.Dropped .shared calls := by
  induction calls generalizing s with
  | nil => exact not_false
  | cons call calls ih =>
      -- the shared key always has its environment
      rintro (⟨_, hnone⟩ | hlater)
      · cases hnone
      · exact ih (call.run s) hlater

/-- What it takes, in terms of the cells, that two of them have one key and that it is kept. -/
theorem keptKey_iff (s : Store) (calls : List Call) (interpreter₁ interpreter₂ : String)
    (session₁ session₂ : Option String) :
    (Key.ofCell interpreter₁ session₁ = Key.ofCell interpreter₂ session₂ ∧
        ¬ s.Dropped (.ofCell interpreter₁ session₁) calls) ↔
      (Sessionless session₁ ∧ Sessionless session₂) ∨
      ∃ id, id ≠ "" ∧ interpreter₁ = interpreter₂ ∧ session₁ = some id ∧ session₂ = some id ∧
        ¬ s.Dropped (.session interpreter₁ id) calls := by
  constructor
  · rintro ⟨hkey, hkept⟩
    rcases hk : Key.ofCell interpreter₁ session₁ with _ | ⟨interpreter, id⟩
    · left
      exact ⟨Key.ofCell_eq_shared_iff.mp hk, Key.ofCell_eq_shared_iff.mp (hkey ▸ hk)⟩
    · right
      rcases Key.ofCell_eq_session_iff.mp hk with ⟨hi₁, hs₁, hid⟩
      rcases Key.ofCell_eq_session_iff.mp (hkey ▸ hk) with ⟨hi₂, hs₂, _⟩
      simp only [hk, ← hi₁] at hkept
      exact ⟨id, hid, hi₁.trans hi₂.symm, hs₁, hs₂, hkept⟩
  · rintro (⟨h₁, h₂⟩ | ⟨id, hid, hi, h₁, h₂, hkept⟩)
    · have hk₁ : Key.ofCell interpreter₁ session₁ = .shared := Key.ofCell_eq_shared_iff.mpr h₁
      have hk₂ : Key.ofCell interpreter₂ session₂ = .shared := Key.ofCell_eq_shared_iff.mpr h₂
      simp only [hk₁, hk₂]
      exact ⟨trivial, not_dropped_shared s calls⟩
    · have hk₁ : Key.ofCell interpreter₁ session₁ = .session interpreter₁ id :=
        Key.ofCell_eq_session_iff.mpr ⟨rfl, h₁, hid⟩
      have hk₂ : Key.ofCell interpreter₂ session₂ = .session interpreter₁ id :=
        Key.ofCell_eq_session_iff.mpr ⟨hi.symm, h₂, hid⟩
      simp only [hk₁, hk₂]
      exact ⟨trivial, hkept⟩

/-- Environment identity.  Lookups give the same environment only where they have to, a new
environment is one that nobody has seen, and the shared one stays. -/
theorem lookup_identity :
    (∀ (before between : List Call) (now₁ now₂ : Instant) (interpreter₁ interpreter₂ : String)
        (session₁ session₂ : Option String),
      let first := (Store.empty.after before).lookup now₁ interpreter₁ session₁
      let second := (first.1.after between).lookup now₂ interpreter₂ session₂
      first.2 = second.2 ↔
        (Sessionless session₁ ∧ Sessionless session₂) ∨
        ∃ id, id ≠ "" ∧ interpreter₁ = interpreter₂ ∧ session₁ = some id ∧ session₂ = some id ∧
          ¬ first.1.Dropped (.session interpreter₁ id) between) ∧
    (∀ (calls : List Call) (now : Instant) (interpreter : String) (session : Option String),
      let s := Store.empty.after calls
      let found := s.lookup now interpreter session
      s.environmentAt (.ofCell interpreter session) = none →
        found.1.bindings found.2 = .empty ∧ found.2 ≠ sharedEnvironment ∧
          found.2 ∉ Store.empty.handedOut calls) ∧
    (∀ (before calls : List Call) (now : Instant) (interpreter : String) (session : Option String),
      let s := Store.empty.after before
      (Sessionless session →
        ((s.after calls).lookup now interpreter session).2 = sharedEnvironment) ∧
      ((∀ env, Call.write sharedEnvironment env ∉ calls) →
        (s.after calls).bindings sharedEnvironment = s.bindings sharedEnvironment)) := by
  refine ⟨?_, ?_, ?_⟩
  · intro before between now₁ now₂ interpreter₁ interpreter₂ session₁ session₂ first second
    have hbefore : (Store.empty.after before).WellFormed := WellFormed.empty.after before
    have hkeys := lookup_eq_lookup_iff hbefore between now₁ now₂ interpreter₁ interpreter₂
      session₁ session₂
    exact hkeys.trans (keptKey_iff first.1 between interpreter₁ interpreter₂ session₁ session₂)
  · intro calls now interpreter session s found hnew
    have hs : s.WellFormed := WellFormed.empty.after calls
    have hfound : found.2 = s.nextEnvironment := by
      simpa only [hnew, Option.getD_none] using lookup_environment s now interpreter session
    have hblank := hs.blank (Nat.le_refl s.nextEnvironment)
    have hshared : sharedEnvironment < s.nextEnvironment := hs.made (environmentAt_shared s)
    -- all that have been handed out have smaller numbers
    have hunseen : s.nextEnvironment ∉ Store.empty.handedOut calls := by
      intro hmem
      have hlt : s.nextEnvironment < s.nextEnvironment := handedOut_lt WellFormed.empty calls hmem
      exact Nat.lt_irrefl _ hlt
    simp only [hfound]
    refine ⟨?_, Nat.ne_of_gt hshared, hunseen⟩
    exact (congrFun (bindings_lookup s now interpreter session) s.nextEnvironment).trans hblank
  · intro before calls now interpreter session s
    refine ⟨?_, bindings_after s calls sharedEnvironment⟩
    intro hsession
    have hkey : Key.ofCell interpreter session = .shared := Key.ofCell_eq_shared_iff.mpr hsession
    simp only [lookup_environment, hkey, environmentAt_shared, Option.getD_some]

/-- A session that is removed comes back with another environment. -/
theorem lookup_identity_after_remove :
    let calls : List Call := [.lookup 0 "python" (some "1"), .remove "python" "1"]
    let s := Store.empty.after calls
    s.environmentAt (.ofCell "python" (some "1")) = none ∧
      (s.lookup 5 "python" (some "1")).2 ∉ Store.empty.handedOut calls := by
  intro calls s
  have hnew : s.environmentAt (.ofCell "python" (some "1")) = none := by decide
  exact ⟨hnew, (lookup_identity.2.1 calls 5 "python" (some "1") hnew).2.2⟩

end Store
end CodeSessions
