import CodeSessions.Proofs.Store.WellFormed

/-!
# Views — what can be told of a store by one key

The view of a key is what its session tells of itself, and its bindings.  Every operation on a store
either leaves the view of a key alone or changes it to something that depends on the old view only,
not on the number of the environment and not on the rest of the store.

- `view_lookup`, `view_write`, `view_remove` and `view_sweep` say which of both it is, and to what.
-/

namespace CodeSessions

/-- What a session and its cells can tell of the store. -/
structure View where
  info : Option SessionInfo
  bindings : Bindings

namespace View

/-- The view of a session that is not there. -/
def absent : View :=
  ⟨none, .empty⟩

/-- What a session tells of itself after a use. -/
def usedInfo (now : Instant) : Key → Option SessionInfo → Option SessionInfo
  | .shared, info => info
  | .session _ id, none => some { id, createdAt := now, lastUsedAt := now }
  | .session _ _, some info => some { info with lastUsedAt := now }

/-- The view of a key after a sweep that finds nothing in use. -/
def swept (retention : Retention) (now : Instant) (v : View) : View :=
  match v.info with
  | none => v
  | some info => if retention info now then absent else v

end View

namespace Store

def view (s : Store) (k : Key) : View :=
  ⟨s.infoAt k, s.bindingsAt k⟩

variable {s : Store}

theorem view_congr {t : Store} {k : Key} (h : s.sessionAt k = t.sessionAt k)
    (hb : s.bindings = t.bindings) : s.view k = t.view k := by
  have hinfo : s.infoAt k = t.infoAt k := by
    simp only [infoAt, h]
  have hbindings : s.bindingsAt k = t.bindingsAt k := bindingsAt_congr h hb
  simp only [view, hinfo, hbindings]

theorem view_of_absent {interpreter id : String}
    (h : s.sessionAt (.session interpreter id) = none) :
    s.view (.session interpreter id) = .absent := by
  simp [view, infoAt, bindingsAt, h, View.absent]

/-! ## Lookups and writes -/

theorem bindingsAt_lookup_self (h : s.WellFormed) (now : Instant) (interpreter : String)
    (session : Option String) :
    (s.lookup now interpreter session).1.bindingsAt (.ofCell interpreter session) =
      s.bindingsAt (.ofCell interpreter session) := by
  have hnow := environmentAt_lookup_self s now interpreter session
  have hfound := lookup_environment s now interpreter session
  rcases hold : s.environmentAt (.ofCell interpreter session) with _ | e
  · -- a new environment is empty, and so are the bindings of an absent session
    have hblank := h.blank (Nat.le_refl s.nextEnvironment)
    simpa only [bindingsAt, hnow, hfound, hold, bindings_lookup, Option.getD_none] using hblank
  · simp only [bindingsAt, hnow, hfound, hold, bindings_lookup, Option.getD_some]

theorem infoAt_lookup_self (s : Store) (now : Instant) (interpreter : String)
    (session : Option String) :
    (s.lookup now interpreter session).1.infoAt (.ofCell interpreter session) =
      View.usedInfo now (.ofCell interpreter session)
        (s.infoAt (.ofCell interpreter session)) := by
  rcases lookup_cases s now interpreter session with
    ⟨hkey, hs⟩ | ⟨id, found, _, hkey, hfind, hs⟩ | ⟨id, _, hkey, hfind, hs⟩
  -- no session, so no note is taken
  · simp only [hs, hkey, View.usedInfo]
  · have hfound : s.sessionAt (.session interpreter id) = some found := hfind
    simp [hs, hkey, infoAt, sessionAt_touch, hfound, View.usedInfo]
  · have habsent : s.sessionAt (.session interpreter id) = none := hfind
    simp [hs, hkey, infoAt, sessionAt_create hfind, habsent, View.usedInfo]

/-- A lookup makes its session, if need be, and notes the use; no bindings change. -/
theorem view_lookup (h : s.WellFormed) (now : Instant) (interpreter : String)
    (session : Option String) (k : Key) :
    (s.lookup now interpreter session).1.view k =
      if k = .ofCell interpreter session then
        { s.view k with info := View.usedInfo now k (s.infoAt k) }
      else s.view k := by
  -- the key itself sees the use; every other key sees the same session and the same bindings
  by_cases hself : k = .ofCell interpreter session
  · subst hself
    have hbindings := bindingsAt_lookup_self h now interpreter session
    have hinfo := infoAt_lookup_self s now interpreter session
    simp only [view, hbindings, hinfo, if_true]
  · have hview := view_congr (sessionAt_lookup_of_ne hself now)
      (bindings_lookup s now interpreter session)
    simpa only [hself, if_false] using hview

/-- A write to the environment of one key is seen by that key only. -/
theorem view_write (h : s.WellFormed) {target : Key} {e : EnvironmentId}
    (he : s.environmentAt target = some e) (env : Bindings) (k : Key) :
    (s.setBindings e env).view k =
      if k = target then { s.view k with bindings := env } else s.view k := by
  have hinfo : (s.setBindings e env).infoAt k = s.infoAt k := by
    simp only [infoAt, sessionAt_setBindings]
  by_cases hself : k = target
  · subst hself
    have hbindings : (s.setBindings e env).bindingsAt k = env := by
      simp [bindingsAt, he]
    simp only [view, hinfo, hbindings, if_true]
  · have hbindings : (s.setBindings e env).bindingsAt k = s.bindingsAt k := by
      rcases hk : s.environmentAt k with _ | e'
      · simp only [bindingsAt, environmentAt_setBindings, hk]
      · -- two keys have no environment in common, so the write goes elsewhere
        have hne : e ≠ e' := by
          intro heq
          exact hself (h.separate hk (heq ▸ he))
        simp [bindingsAt, hk, hne]
    simp only [view, hinfo, hbindings, hself, if_false]

/-! ## Removals and sweeps -/

theorem view_remove (s : Store) (interpreter id : String) (k : Key) :
    (s.remove interpreter id).1.view k =
      if k = .session interpreter id then .absent else s.view k := by
  have hsession := sessionAt_remove s interpreter id k
  by_cases hself : k = .session interpreter id
  · subst hself
    simp only [if_true] at hsession
    simpa only [if_true] using view_of_absent hsession
  · simp only [hself, if_false] at hsession
    simpa only [hself, if_false] using view_congr hsession (bindings_remove s interpreter id)

theorem view_sweep (h : s.WellFormed) (retention : Retention) (now : Instant) (k : Key) :
    (s.sweep (fun _ => false) retention now).1.view k = (s.view k).swept retention now := by
  have hsweep := sessionAt_sweep h.toTidy (fun _ => false) retention now k
  cases k with
  | shared => rfl
  | session interpreter id =>
      rcases hsession : s.sessionAt (.session interpreter id) with _ | session
      · simp only [hsession, Option.filter_none] at hsweep
        simp [view_of_absent hsweep, view_of_absent hsession, View.swept, View.absent]
      · have hinfo : (s.view (.session interpreter id)).info = some session.toSessionInfo := by
          simp [view, infoAt, hsession]
        by_cases hgiven : retention session.toSessionInfo now = true
        · -- the session goes, and with it what the key could see
          have hdropped : (s.sweep (fun _ => false) retention now).1.sessionAt
              (.session interpreter id) = none := by
            simpa [hsession, Option.filter, isKept, hgiven] using hsweep
          simp [view_of_absent hdropped, View.swept, hinfo, hgiven]
        · -- the session stays, as it is
          have hkept : (s.sweep (fun _ => false) retention now).1.sessionAt
              (.session interpreter id) = s.sessionAt (.session interpreter id) := by
            simpa [hsession, Option.filter, isKept, hgiven] using hsweep
          have hview := view_congr hkept (bindings_sweep s (fun _ => false) retention now)
          simp [hview, View.swept, hinfo, hgiven]

end Store
end CodeSessions
