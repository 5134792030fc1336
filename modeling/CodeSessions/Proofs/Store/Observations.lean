import CodeSessions.Proofs.Store.Census
import CodeSessions.Proofs.Store.Roster
import Mathlib.Data.List.Induction

/-!
# Observations — what a store shows of its sessions

Whatever calls have been made, a store shows the sessions of an ordered map: each list in the order
of creation, the names of interpreters with sessions, their number, and what removals and sweeps
answer.

- `Store.numbered_after` says that the environments of a list have ascending numbers, so that lists
  are in the order of creation,
- `Store.Dated` are lists whose times are in order too; `dated_after` needs a clock that does not
  run backwards,
- `Store.observations` puts all of it together.
-/

namespace CodeSessions
namespace Store

variable {s : Store}

/-! ## Lookups and other calls -/

/-- The time at which a call looks a session up. -/
def Call.lookedUpAt? : Call → Option Instant
  | lookup now _ _ => some now
  | _ => none

/-- Calls that look nothing up drop sessions at most. -/
theorem sessions_run_sublist (hs : s.Tidy) {call : Call} (hcall : call.lookedUpAt? = none)
    (interpreter : String) :
    ((call.run s).sessions interpreter).Sublist (s.sessions interpreter) := by
  cases call with
  | lookup now other session => cases hcall
  | remove other id =>
      simp only [Call.run, sessions_remove]
      split
      · exact List.filter_sublist
      · exact List.Sublist.refl _
  | sweep inUse retention now =>
      simp only [Call.run, sessions_sweep hs]
      exact List.filter_sublist
  | write e env =>
      by_cases he : e < s.nextEnvironment <;> simp [Call.run, he]

/-! ## The order of creation -/

/-- The environments of a list are in the order in which they were made. -/
def Numbered (shelf : List Session) : Prop :=
  shelf.Pairwise fun a b => a.environment < b.environment

theorem numbered_run (hs : s.WellFormed) (h : ∀ interpreter, Numbered (s.sessions interpreter))
    (call : Call) (interpreter : String) : Numbered ((call.run s).sessions interpreter) := by
  rcases htime : call.lookedUpAt? with _ | now
  · exact (h interpreter).sublist (sessions_run_sublist hs.toTidy htime interpreter)
  · cases call with
    | lookup now other session =>
        rcases lookup_cases s now other session with
          ⟨_, hlookup⟩ | ⟨id, _, _, _, _, hlookup⟩ | ⟨id, _, _, _, hlookup⟩
        · simpa only [Call.run, hlookup] using h interpreter
        · simp only [Call.run, hlookup, sessions_touch]
          split
          -- a touch keeps the environments
          · refine List.pairwise_map.mpr ((h other).imp ?_)
            intro a b hlt
            by_cases ha : a.id = id <;> by_cases hb : b.id = id <;> simpa [ha, hb] using hlt
          · exact h interpreter
        · simp only [Call.run, hlookup, sessions_create]
          split
          · refine List.pairwise_append.mpr ⟨h other, List.pairwise_singleton _ _, ?_⟩
            intro a ha b hb
            rcases List.mem_singleton.mp hb with rfl
            exact environment_lt hs ha
          · exact h interpreter
    | _ => cases htime

theorem numbered_after (hs : s.WellFormed) (h : ∀ interpreter, Numbered (s.sessions interpreter))
    (calls : List Call) (interpreter : String) :
    Numbered ((s.after calls).sessions interpreter) := by
  induction calls generalizing s with
  | nil => exact h interpreter
  | cons call calls ih => exact ih (hs.run call) (numbered_run hs h call)

/-! ## Times -/

/-- Sessions are in the order of their creation times; each was used last at its creation or later,
and none after `now`. -/
structure Dated (now : Instant) (shelf : List Session) : Prop where
  created : shelf.Pairwise fun a b => a.createdAt ≤ b.createdAt
  used : ∀ session ∈ shelf, session.createdAt ≤ session.lastUsedAt ∧ session.lastUsedAt ≤ now

namespace Dated

variable {now : Instant} {shelf : List Session}

theorem later (h : Dated now shelf) {later : Instant} (hle : now ≤ later) : Dated later shelf where
  created := h.created
  used := by
    intro session hmem
    rcases h.used session hmem with ⟨hcreated, hused⟩
    exact ⟨hcreated, Int.le_trans hused hle⟩

theorem sublist {rest : List Session} (h : Dated now shelf) (hsub : rest.Sublist shelf) :
    Dated now rest where
  created := h.created.sublist hsub
  used := fun session hmem => h.used session (hsub.subset hmem)

theorem touched (h : Dated now shelf) (id : String) :
    Dated now (shelf.map (Session.touch now id)) where
  created := by
    refine List.pairwise_map.mpr (h.created.imp ?_)
    intro a b hle
    simpa using hle
  used := by
    intro session hmem
    rcases List.mem_map.mp hmem with ⟨before, hbefore, rfl⟩
    rcases h.used before hbefore with ⟨hcreated, hused⟩
    by_cases hid : before.id = id
    · simpa [Session.touch_of_eq hid] using Int.le_trans hcreated hused
    · simpa [Session.touch_of_ne hid] using And.intro hcreated hused

/-- A session that is made now is the latest. -/
theorem snoc (h : Dated now shelf) (id : String) (e : EnvironmentId) :
    Dated now (shelf ++ [{ id, createdAt := now, lastUsedAt := now, environment := e }]) where
  created := by
    refine List.pairwise_append.mpr ⟨h.created, List.pairwise_singleton _ _, ?_⟩
    intro a ha b hb
    rcases List.mem_singleton.mp hb with rfl
    rcases h.used a ha with ⟨hcreated, hused⟩
    exact Int.le_trans hcreated hused
  used := by
    intro session hmem
    rcases List.mem_append.mp hmem with hold | hnew
    · exact h.used session hold
    · rcases List.mem_singleton.mp hnew with rfl
      exact ⟨Int.le_refl _, Int.le_refl _⟩

/-- Looking up at the current time keeps the times in order. -/
theorem lookup (h : ∀ interpreter, Dated now (s.sessions interpreter)) (other : String)
    (session : Option String) (interpreter : String) :
    Dated now ((s.lookup now other session).1.sessions interpreter) := by
  rcases lookup_cases s now other session with
    ⟨_, hlookup⟩ | ⟨id, _, _, _, _, hlookup⟩ | ⟨id, _, _, _, hlookup⟩
  · simpa only [hlookup] using h interpreter
  · simp only [hlookup, sessions_touch]
    split
    · exact (h other).touched id
    · exact h interpreter
  · simp only [hlookup, sessions_create]
    split
    · exact (h other).snoc id s.nextEnvironment
    · exact h interpreter

end Dated

theorem after_snoc (s : Store) (calls : List Call) (call : Call) :
    s.after (calls ++ [call]) = call.run (s.after calls) := by
  simp [after]

/-- Under a clock that does not run backwards the times of all lists are in order. -/
theorem dated_after {calls : List Call}
    (hclock : (calls.filterMap Call.lookedUpAt?).Pairwise (· ≤ ·)) {now : Instant}
    (hnow : ∀ t ∈ calls.filterMap Call.lookedUpAt?, t ≤ now) (interpreter : String) :
    Dated now ((Store.empty.after calls).sessions interpreter) := by
  -- by induction on the calls, with the last call last: all earlier lookups were not after it
  induction calls using List.reverseRecOn generalizing now interpreter with
  | nil => exact ⟨List.Pairwise.nil, fun session hmem => by cases hmem⟩
  | append_singleton calls call ih =>
      have hs : (Store.empty.after calls).WellFormed := WellFormed.empty.after calls
      simp only [List.filterMap_append, List.pairwise_append] at hclock
      rw [after_snoc]
      rcases htime : call.lookedUpAt? with _ | t
      · have hearlier : ∀ t ∈ calls.filterMap Call.lookedUpAt?, t ≤ now := by
          intro t hmem
          exact hnow t (by simp [hmem])
        exact (ih hclock.1 hearlier interpreter).sublist (sessions_run_sublist hs.toTidy htime _)
      · have htnow : t ≤ now := hnow t (by simp [htime])
        have hearlier : ∀ t' ∈ calls.filterMap Call.lookedUpAt?, t' ≤ t := by
          intro t' hmem
          exact hclock.2.2 t' hmem t (by simp [htime])
        cases call with
        | lookup now' other session =>
            injection htime with htime
            subst htime
            exact (Dated.lookup (ih hclock.1 hearlier) other session interpreter).later htnow
        | _ => cases htime

/-! ## Whole runs -/

/-- After any calls a store shows the sessions of the ordered map that has had the same calls. -/
theorem observations (calls : List Call) :
    let s := Store.empty.after calls
    let r := ({} : Roster).after calls
    (∀ now interpreter session, (s.lookup now interpreter session).2 =
      (r.lookup now (.ofCell interpreter session)).2) ∧
    (∀ interpreter, s.sessions interpreter = r.sessions interpreter ∧
      (∀ id, (∃ session ∈ s.sessions interpreter, session.id = id) ↔ r.Live interpreter id) ∧
      Numbered (s.sessions interpreter) ∧
      ((s.sessions interpreter).map fun session => session.id).Nodup ∧
      ∀ session ∈ s.sessions interpreter, session.id ≠ "") ∧
    s.interpreters.Pairwise (· < ·) ∧
    (∀ interpreter, interpreter ∈ s.interpreters ↔ ∃ id, r.Live interpreter id) ∧
    s.sessionCount = (s.interpreters.map fun interpreter => (s.sessions interpreter).length).sum ∧
    (∀ interpreter id, ((s.remove interpreter id).2 = true ↔ r.Live interpreter id) ∧
      ∀ other, (s.remove interpreter id).1.sessions other =
        if interpreter = other then (s.sessions other).filter fun session => session.id ≠ id
        else s.sessions other) ∧
    (∀ inUse retention now, (s.sweep inUse retention now).1.sessionCount +
      (s.sweep inUse retention now).2 = s.sessionCount) ∧
    ((calls.filterMap Call.lookedUpAt?).Pairwise (· ≤ ·) →
      ∀ now, (∀ t ∈ calls.filterMap Call.lookedUpAt?, t ≤ now) →
        ∀ interpreter, Dated now (s.sessions interpreter)) := by
  intro s r
  have hs : s.WellFormed := WellFormed.empty.after calls
  have hr : Represents r s := represents_after calls
  refine ⟨?_, ?_, interpreters_ascending hs.toTidy, ?_, sessionCount_eq_sum hs.toTidy, ?_,
    sessionCount_sweep s, ?_⟩
  · intro now interpreter session
    exact (hr.lookup now interpreter session).2
  · intro interpreter
    refine ⟨hr.sessions interpreter, ?_, ?_, hs.ids interpreter, ?_⟩
    · intro id
      rw [hr.sessions]
      exact (r.live_iff interpreter id).symm
    · exact numbered_after .empty (fun _ => List.Pairwise.nil) calls interpreter
    · intro session hmem hid
      -- a session with an empty id could be looked up by it
      have hfound := sessionAt_of_mem_sessions hs.toTidy hmem
      have hnone : s.find? interpreter session.id = none := hid ▸ hs.named interpreter
      cases hnone.symm.trans hfound
  · intro interpreter
    rw [mem_interpreters_iff hs.toTidy, hr.sessions]
    simp only [Roster.live_iff]
    constructor
    · intro hne
      rcases List.exists_mem_of_ne_nil _ hne with ⟨session, hmem⟩
      exact ⟨session.id, session, hmem, rfl⟩
    · rintro ⟨id, session, hmem, _⟩
      exact List.ne_nil_of_mem hmem
  · intro interpreter id
    refine ⟨?_, sessions_remove s interpreter id⟩
    rw [Roster.Live, ← hr.find?]
    rcases hfind : s.find? interpreter id with _ | session <;> simp [remove, hfind]
  · intro hclock now hnow interpreter
    exact dated_after hclock hnow interpreter

/-- A removal that empties a list, a session that comes back behind one of another interpreter, and
a last use that is not a creation. -/
theorem observations_after_return :
    let calls : List Call :=
      [.lookup 1 "python" (some "a"), .lookup 2 "jython" (some "a"), .lookup 2 "python" (some "b"),
        .remove "python" "a", .remove "jython" "a", .lookup 5 "python" (some "a"),
        .lookup 7 "python" (some "b")]
    let s := Store.empty.after calls
    (calls.filterMap Call.lookedUpAt?).Pairwise (· ≤ ·) ∧
      (∀ t ∈ calls.filterMap Call.lookedUpAt?, t ≤ 9) ∧
      (s.sessions "python").map (fun session => (session.id, session.createdAt)) =
        [("b", 2), ("a", 5)] ∧
      s.interpreters = ["python"] ∧ Dated 9 (s.sessions "python") := by
  intro calls s
  have hclock : (calls.filterMap Call.lookedUpAt?).Pairwise (· ≤ ·) := by decide
  have hnow : ∀ t ∈ calls.filterMap Call.lookedUpAt?, t ≤ 9 := by decide
  have hdated := (observations calls).2.2.2.2.2.2.2 hclock 9 hnow "python"
  -- the shelf of the other interpreter is still there, and empty
  have hnames : (s.shelves.entries.filter fun shelf => !shelf.2.isEmpty).map Prod.fst =
      ["python"] := by decide
  exact ⟨hclock, hnow, by decide, by simp [interpreters, hnames], hdated⟩

end Store
end CodeSessions
