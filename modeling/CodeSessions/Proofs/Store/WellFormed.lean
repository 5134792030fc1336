import CodeSessions.Proofs.Store.Keys

/-!
# Well-formed stores — what holds of a store after any calls

A store changes by the calls of `Store.Call`: its own operations, and writes to environments that it
has made.  This file collects what all calls preserve.

- `Store.Call.run` and `Store.after` carry out one call and a sequence of them,
- `Store.WellFormed` is the invariant: shelves and ids are not repeated, every environment is behind
  one key at most, and environments that are not made yet are empty,
- `WellFormed.run` is the step, `Reachable.wellFormed` the run.
-/

namespace CodeSessions
namespace Store

/-! ## Calls -/

/-- What can happen to a store. -/
inductive Call
  | lookup (now : Instant) (interpreter : String) (session : Option String)
  | remove (interpreter id : String)
  | sweep (inUse : EnvironmentId → Bool) (retention : Retention) (now : Instant)
  /-- Someone who holds an environment changes its bindings. -/
  | write (e : EnvironmentId) (env : Bindings)

/-- Carries out a call.  An environment that has not been made is held by nobody. -/
def Call.run (s : Store) : Call → Store
  | lookup now interpreter session => (s.lookup now interpreter session).1
  | remove interpreter id => (s.remove interpreter id).1
  | sweep inUse retention now => (s.sweep inUse retention now).1
  | write e env => if e < s.nextEnvironment then s.setBindings e env else s

def after (s : Store) (calls : List Call) : Store :=
  calls.foldl Call.run s

@[simp] theorem after_nil (s : Store) : s.after [] = s := rfl

@[simp] theorem after_cons (s : Store) (call : Call) (calls : List Call) :
    s.after (call :: calls) = (call.run s).after calls := rfl

/-- The stores that calls lead to from a new store. -/
def Reachable (s : Store) : Prop :=
  ∃ calls, Store.empty.after calls = s

/-! ## Tidiness -/

theorem Tidy.touch {s : Store} (h : s.Tidy) (now : Instant) (interpreter id : String) :
    (s.touch now interpreter id).Tidy where
  shelves := Table.nodup_keys_set h.shelves _ _
  ids := by
    intro other
    -- the ids on every shelf are what they were
    have hids : ((s.sessions interpreter).map (Session.touch now id)).map
          (fun session => session.id) =
        (s.sessions interpreter).map fun session => session.id := by
      simp [Function.comp_def]
    by_cases hi : interpreter = other
    · subst hi
      simpa only [sessions_touch, if_true, hids] using h.ids interpreter
    · simpa only [sessions_touch, hi, if_false] using h.ids other

theorem Tidy.create {s : Store} (h : s.Tidy) {interpreter id : String}
    (hnew : s.find? interpreter id = none) (now : Instant) :
    (s.create now interpreter id).Tidy where
  shelves := Table.nodup_keys_set h.shelves _ _
  ids := by
    intro other
    by_cases hi : interpreter = other
    · -- the new id goes last, and is not there yet
      subst hi
      have hfresh : ∀ session ∈ s.sessions interpreter, session.id ≠ id := by
        intro session hmem
        simpa using List.find?_eq_none.mp hnew session hmem
      have hids : ((s.sessions interpreter).map (fun session => session.id) ++ [id]).Nodup := by
        refine List.nodup_append.mpr ⟨h.ids interpreter, by simp, ?_⟩
        intro x hx y hy hxy
        rcases List.mem_map.mp hx with ⟨session, hmem, hid⟩
        have hy : y = id := List.mem_singleton.mp hy
        exact hfresh session hmem (hid.trans (hxy.trans hy))
      simpa only [sessions_create, if_true, List.map_append, List.map_cons, List.map_nil] using hids
    · simpa only [sessions_create, hi, if_false] using h.ids other

theorem Tidy.lookup {s : Store} (h : s.Tidy) (now : Instant) (interpreter : String)
    (session : Option String) : (s.lookup now interpreter session).1.Tidy := by
  rcases lookup_cases s now interpreter session with
    ⟨_, hs⟩ | ⟨id, found, _, _, _, hs⟩ | ⟨id, _, _, hfind, hs⟩
  · simpa [hs] using h
  · simpa [hs] using h.touch now interpreter id
  · simpa [hs] using h.create hfind now

theorem Tidy.remove {s : Store} (h : s.Tidy) (interpreter id : String) :
    (s.remove interpreter id).1.Tidy where
  shelves := by
    rcases hfind : s.find? interpreter id with _ | session
    · simpa only [Store.remove, hfind] using h.shelves
    · simpa only [Store.remove, hfind] using Table.nodup_keys_set h.shelves _ _
  ids := by
    intro other
    have hsub : ((s.remove interpreter id).1.sessions other).Sublist (s.sessions other) := by
      by_cases hi : interpreter = other
      · simp [sessions_remove, if_pos hi]
      · simp [sessions_remove, if_neg hi]
    exact (h.ids other).sublist (hsub.map _)

theorem Tidy.sweep {s : Store} (h : s.Tidy) (inUse : EnvironmentId → Bool) (retention : Retention)
    (now : Instant) : (s.sweep inUse retention now).1.Tidy where
  shelves := by
    -- the filter inside the shelves keeps the names, the filter of the shelves drops some
    have hkeys : ((s.shelves.entries.map fun shelf =>
        (shelf.1, shelf.2.filter (isKept inUse retention now))).map Prod.fst) =
        s.shelves.keys := by
      simp [Table.keys]
    have hnodup := h.shelves
    simp only [← hkeys] at hnodup
    exact hnodup.sublist (List.filter_sublist.map Prod.fst)
  ids := by
    intro other
    have hsub : ((s.sweep inUse retention now).1.sessions other).Sublist (s.sessions other) := by
      simp [sessions_sweep h]
    exact (h.ids other).sublist (hsub.map _)

/-! ## Well-formedness -/

structure WellFormed (s : Store) : Prop extends Tidy s where
  /-- No session has an empty id. -/
  named : ∀ interpreter, s.find? interpreter "" = none
  /-- The numbers of new environments are above all that are in use. -/
  made : ∀ {k e}, s.environmentAt k = some e → e < s.nextEnvironment
  /-- No environment is behind two keys. -/
  separate : ∀ {k l e}, s.environmentAt k = some e → s.environmentAt l = some e → k = l
  blank : ∀ {e}, s.nextEnvironment ≤ e → s.bindings e = .empty

namespace WellFormed

theorem empty : Store.empty.WellFormed where
  shelves := List.nodup_nil
  ids := fun _ => List.nodup_nil
  named := fun _ => rfl
  made := by
    intro k e h
    cases k with
    | shared =>
        have he : sharedEnvironment = e := by simpa using h
        subst he
        exact Nat.zero_lt_one
    | session interpreter id => cases h
  separate := by
    intro k l e hk hl
    cases k with
    | shared =>
        cases l with
        | shared => rfl
        | session interpreter id => cases hl
    | session interpreter id => cases hk
  blank := fun _ => rfl

theorem lookup {s : Store} (h : s.WellFormed) (now : Instant) (interpreter : String)
    (session : Option String) : (s.lookup now interpreter session).1.WellFormed where
  toTidy := h.toTidy.lookup now interpreter session
  named := by
    intro other
    -- the key that is looked up has an id, or is the shared one
    have hkey : Key.session other "" ≠ .ofCell interpreter session := by
      intro hkey
      rcases lookup_cases s now interpreter session with
        ⟨hk, _⟩ | ⟨id, _, hid, hk, _⟩ | ⟨id, hid, hk, _⟩
      · simp [hk] at hkey
      · simp only [hk, Key.session.injEq] at hkey
        exact hid hkey.2.symm
      · simp only [hk, Key.session.injEq] at hkey
        exact hid hkey.2.symm
    exact (sessionAt_lookup_of_ne hkey now).trans (h.named other)
  made := by
    intro k e hk
    have hgrows := nextEnvironment_le_lookup s now interpreter session
    by_cases hself : k = .ofCell interpreter session
    · subst hself
      have hfound : (s.lookup now interpreter session).2 = e := by
        simpa only [environmentAt_lookup_self, Option.some.injEq] using hk
      have henvironment := lookup_environment s now interpreter session
      rcases hold : s.environmentAt (.ofCell interpreter session) with _ | e'
      · -- a new environment has the next number, and the one after it is the next from now on
        simp [← hfound, henvironment, nextEnvironment_lookup, hold]
      · have he : e' = e := by simpa [hold, hfound] using henvironment.symm
        calc
          e < s.nextEnvironment := he ▸ h.made hold
          _ ≤ (s.lookup now interpreter session).1.nextEnvironment := hgrows
    · have hold := (environmentAt_lookup_of_ne hself now).symm.trans hk
      calc
        e < s.nextEnvironment := h.made hold
        _ ≤ (s.lookup now interpreter session).1.nextEnvironment := hgrows
  separate := by
    intro k l e hk hl
    -- the environment of the looked-up key is its old one, or is behind no key at all
    have hfresh : ∀ other, s.environmentAt other = some (s.lookup now interpreter session).2 →
        other = .ofCell interpreter session := by
      intro other hother
      have henvironment := lookup_environment s now interpreter session
      rcases hold : s.environmentAt (.ofCell interpreter session) with _ | e'
      · simp only [henvironment, hold, Option.getD_none] at hother
        exact absurd (h.made hother) (Nat.lt_irrefl _)
      · simp only [henvironment, hold, Option.getD_some] at hother
        exact h.separate hother hold
    by_cases hkself : k = .ofCell interpreter session
    · subst hkself
      by_cases hlself : l = .ofCell interpreter session
      · exact hlself.symm
      · have hold := (environmentAt_lookup_of_ne hlself now).symm.trans hl
        have hsame := (environmentAt_lookup_self s now interpreter session).symm.trans hk
        exact (hfresh l (hold.trans hsame.symm)).symm
    · have holdK := (environmentAt_lookup_of_ne hkself now).symm.trans hk
      by_cases hlself : l = .ofCell interpreter session
      · subst hlself
        have hsame := (environmentAt_lookup_self s now interpreter session).symm.trans hl
        exact hfresh k (holdK.trans hsame.symm)
      · have holdL := (environmentAt_lookup_of_ne hlself now).symm.trans hl
        exact h.separate holdK holdL
  blank := by
    intro e he
    have hgrows := nextEnvironment_le_lookup s now interpreter session
    have hblank := h.blank (Nat.le_trans hgrows he)
    simpa using hblank

/-- Dropping sessions, whichever they are, keeps a store well-formed. -/
theorem drop {s t : Store} (h : s.WellFormed) (ht : t.Tidy)
    (hsessions : ∀ k, t.sessionAt k = s.sessionAt k ∨ t.sessionAt k = none)
    (hnext : t.nextEnvironment = s.nextEnvironment) (hb : t.bindings = s.bindings) :
    t.WellFormed := by
  have henvironments : ∀ {k e}, t.environmentAt k = some e → s.environmentAt k = some e := by
    intro k e hk
    exact environmentAt_of_dropped (hsessions k) hk
  refine { ht with named := ?_, made := ?_, separate := ?_, blank := ?_ }
  · intro interpreter
    rcases hsessions (.session interpreter "") with hsame | hnone
    · exact hsame.trans (h.named interpreter)
    · exact hnone
  · intro k e hk
    have hlt := h.made (henvironments hk)
    simpa [hnext] using hlt
  · intro k l e hk hl
    exact h.separate (henvironments hk) (henvironments hl)
  · intro e he
    have hblank := h.blank (hnext ▸ he)
    simpa [hb] using hblank

theorem remove {s : Store} (h : s.WellFormed) (interpreter id : String) :
    (s.remove interpreter id).1.WellFormed :=
  h.drop (h.toTidy.remove interpreter id) (sessionAt_remove_cases s interpreter id) (by simp)
    (by simp)

theorem sweep {s : Store} (h : s.WellFormed) (inUse : EnvironmentId → Bool) (retention : Retention)
    (now : Instant) : (s.sweep inUse retention now).1.WellFormed :=
  h.drop (h.toTidy.sweep inUse retention now) (sessionAt_sweep_cases h.toTidy inUse retention now)
    rfl rfl

theorem setBindings {s : Store} (h : s.WellFormed) {e : EnvironmentId} (he : e < s.nextEnvironment)
    (env : Bindings) : (s.setBindings e env).WellFormed where
  shelves := h.shelves
  ids := h.ids
  named := h.named
  made := by
    intro k e' hk
    exact h.made (by simpa using hk)
  separate := by
    intro k l e' hk hl
    exact h.separate (by simpa using hk) (by simpa using hl)
  blank := by
    intro e' he'
    -- the write is to an environment that has been made, and the blank ones have not
    have hne : e ≠ e' := by
      intro heq
      subst heq
      exact absurd he (Nat.not_lt.mpr he')
    simpa [hne] using h.blank he'

/-- Every call keeps a store well-formed. -/
theorem run {s : Store} (h : s.WellFormed) (call : Call) : (call.run s).WellFormed := by
  cases call with
  | lookup now interpreter session => exact h.lookup now interpreter session
  | remove interpreter id => exact h.remove interpreter id
  | sweep inUse retention now => exact h.sweep inUse retention now
  | write e env =>
      by_cases he : e < s.nextEnvironment
      · simpa [Call.run, he] using h.setBindings he env
      · simpa [Call.run, he] using h

theorem after {s : Store} (h : s.WellFormed) (calls : List Call) : (s.after calls).WellFormed := by
  induction calls generalizing s with
  | nil => exact h
  | cons call calls ih => exact ih (h.run call)

end WellFormed

theorem Reachable.wellFormed {s : Store} (h : s.Reachable) : s.WellFormed := by
  rcases h with ⟨calls, rfl⟩
  exact WellFormed.empty.after calls

end Store
end CodeSessions
