import CodeSessions.Proofs.Store.WellFormed

/-!
# Rosters — an ordered map that does what a store does

A roster is one list of sessions with their interpreters, in the order in which the sessions were
made.  It has no shelves, so nothing empty is left on it when a session goes.

- `Roster.find?`, `Roster.Live` and `Roster.sessions` look at a roster,
- `Roster.run` and `Roster.after` carry out the calls of a store on it,
- `Represents` relates a roster to the store that shows the same sessions; `Represents.run` is the
  step, and `represents_after` says that the two agree after all calls.
-/

namespace CodeSessions

/-- Sessions with the names of their interpreters, oldest first. -/
structure Roster where
  entries : List (String × Session) := []
  /-- The number of the next new environment. -/
  nextEnvironment : EnvironmentId := 1

namespace Roster

/-! ## Looking a session up -/

def isOf (interpreter id : String) (entry : String × Session) : Bool :=
  decide (entry.1 = interpreter ∧ entry.2.id = id)

def find? (r : Roster) (interpreter id : String) : Option Session :=
  (r.entries.find? (isOf interpreter id)).map Prod.snd

/-- Whether an interpreter has a session. -/
def Live (r : Roster) (interpreter id : String) : Prop :=
  r.find? interpreter id ≠ none

def sessions (r : Roster) (interpreter : String) : List Session :=
  (r.entries.filter fun entry => decide (entry.1 = interpreter)).map Prod.snd

/-! ## Calls -/

/-- What the entry of a session becomes when the session is used; other entries stay. -/
def touched (now : Instant) (interpreter id : String) (entry : String × Session) :
    String × Session :=
  if isOf interpreter id entry then (entry.1, { entry.2 with lastUsedAt := now }) else entry

def touch (r : Roster) (now : Instant) (interpreter id : String) : Roster :=
  { r with entries := r.entries.map (touched now interpreter id) }

def create (r : Roster) (now : Instant) (interpreter id : String) : Roster where
  entries := r.entries ++
    [(interpreter, { id, createdAt := now, lastUsedAt := now, environment := r.nextEnvironment })]
  nextEnvironment := r.nextEnvironment + 1

/-- The environment behind a key; a session that is not there is put last. -/
def lookup (r : Roster) (now : Instant) : Key → Roster × EnvironmentId
  | .shared => (r, Store.sharedEnvironment)
  | .session interpreter id =>
      match r.find? interpreter id with
      | some session => (r.touch now interpreter id, session.environment)
      | none => (r.create now interpreter id, r.nextEnvironment)

def remove (r : Roster) (interpreter id : String) : Roster :=
  { r with entries := r.entries.filter fun entry => !isOf interpreter id entry }

def sweep (r : Roster) (inUse : EnvironmentId → Bool) (retention : Retention) (now : Instant) :
    Roster :=
  { r with entries := r.entries.filter fun entry => Store.isKept inUse retention now entry.2 }

/-- Carries out a call of a store.  Bindings are not on a roster. -/
def run (r : Roster) : Store.Call → Roster
  | .lookup now interpreter session => (r.lookup now (.ofCell interpreter session)).1
  | .remove interpreter id => r.remove interpreter id
  | .sweep inUse retention now => r.sweep inUse retention now
  | .write _ _ => r

def after (r : Roster) (calls : List Store.Call) : Roster :=
  calls.foldl run r

/-! ## Sessions of one interpreter -/

variable (r : Roster) (now : Instant) (interpreter id other : String)

theorem find?_eq : r.find? interpreter id =
    (r.sessions interpreter).find? fun session => session.id == id := by
  simp only [find?, sessions, List.find?_map, List.find?_filter]
  congr 2
  funext entry
  simp [isOf]

theorem touched_fst (entry : String × Session) :
    (touched now interpreter id entry).1 = entry.1 := by
  by_cases hof : isOf interpreter id entry = true <;> simp [touched, hof]

theorem sessions_touch : (r.touch now interpreter id).sessions other =
    if interpreter = other then (r.sessions interpreter).map (Session.touch now id)
    else r.sessions other := by
  -- the touched entries of an interpreter are its entries, touched
  have hentries : (r.touch now interpreter id).sessions other =
      (r.entries.filter fun entry => decide (entry.1 = other)).map fun entry =>
        (touched now interpreter id entry).2 := by
    simp [sessions, touch, List.filter_map, Function.comp_def, touched_fst]
  have hsnd : ∀ entry ∈ r.entries.filter fun entry => decide (entry.1 = other),
      (touched now interpreter id entry).2 =
        if interpreter = other then entry.2.touch now id else entry.2 := by
    intro entry hmem
    have hname : entry.1 = other := by simpa using (List.mem_filter.mp hmem).2
    by_cases hi : interpreter = other
    · subst hi
      by_cases hid : entry.2.id = id <;> simp [touched, isOf, Session.touch, hname, hid]
    · have hother : ¬ other = interpreter := fun h => hi h.symm
      simp [touched, isOf, hname, hi, hother]
  refine hentries.trans ((List.map_congr_left hsnd).trans ?_)
  by_cases hi : interpreter = other
  · simp [sessions, hi]
  · simp [sessions, hi]

theorem sessions_create : (r.create now interpreter id).sessions other =
    if interpreter = other then
      r.sessions interpreter ++
        [{ id, createdAt := now, lastUsedAt := now, environment := r.nextEnvironment }]
    else r.sessions other := by
  by_cases hi : interpreter = other <;> simp [sessions, create, hi]

theorem sessions_remove : (r.remove interpreter id).sessions other =
    if interpreter = other then (r.sessions other).filter fun session => session.id ≠ id
    else r.sessions other := by
  simp only [sessions, remove, List.filter_filter, List.filter_map]
  by_cases hi : interpreter = other
  · simp only [hi, if_true]
    congr 1
    refine List.filter_congr ?_
    intro entry _
    by_cases hname : entry.1 = other
    · by_cases hid : entry.2.id = id <;> simp [isOf, hname, hid]
    · simp [hname]
  · simp only [hi, if_false]
    congr 1
    refine List.filter_congr ?_
    intro entry _
    by_cases hname : entry.1 = other <;> simp [isOf, hname, Ne.symm hi]

theorem sessions_sweep (inUse : EnvironmentId → Bool) (retention : Retention) :
    (r.sweep inUse retention now).sessions interpreter =
      (r.sessions interpreter).filter (Store.isKept inUse retention now) := by
  simp only [sessions, sweep, List.filter_filter, List.filter_map]
  congr 1
  refine List.filter_congr ?_
  intro entry _
  simp [Bool.and_comm]

/-- A session is live if it is among those of its interpreter. -/
theorem live_iff : r.Live interpreter id ↔ ∃ session ∈ r.sessions interpreter, session.id = id := by
  have hlive : r.Live interpreter id ↔ (r.find? interpreter id).isSome = true :=
    Option.isSome_iff_ne_none.symm
  rw [hlive, find?_eq, List.find?_isSome]
  simp

end Roster

/-! ## Representation -/

/-- A store shows the sessions of a roster. -/
structure Represents (r : Roster) (s : Store) : Prop where
  sessions : ∀ interpreter, s.sessions interpreter = r.sessions interpreter
  nextEnvironment : s.nextEnvironment = r.nextEnvironment

namespace Represents

variable {r : Roster} {s : Store}

theorem find? (h : Represents r s) (interpreter id : String) :
    s.find? interpreter id = r.find? interpreter id := by
  simp only [Store.find?, Roster.find?_eq, h.sessions]

/-- A lookup finds the same environment in both. -/
theorem lookup (h : Represents r s) (now : Instant) (interpreter : String)
    (session : Option String) :
    Represents (r.lookup now (.ofCell interpreter session)).1
        (s.lookup now interpreter session).1 ∧
      (s.lookup now interpreter session).2 = (r.lookup now (.ofCell interpreter session)).2 := by
  rcases Store.lookup_cases s now interpreter session with
    ⟨hkey, hs⟩ | ⟨id, found, _, hkey, hfind, hs⟩ | ⟨id, _, hkey, hfind, hs⟩
  · simp only [hs, hkey, Roster.lookup]
    exact ⟨h, trivial⟩
  · have hfound : r.find? interpreter id = some found := (h.find? interpreter id).symm.trans hfind
    simp only [hs, hkey, Roster.lookup, hfound]
    refine ⟨⟨?_, h.nextEnvironment⟩, trivial⟩
    intro other
    simp only [Store.sessions_touch, Roster.sessions_touch, h.sessions]
  · have habsent : r.find? interpreter id = none := (h.find? interpreter id).symm.trans hfind
    simp only [hs, hkey, Roster.lookup, habsent]
    refine ⟨⟨?_, congrArg (· + 1) h.nextEnvironment⟩, h.nextEnvironment⟩
    intro other
    simp only [Store.sessions_create, Roster.sessions_create, h.sessions, h.nextEnvironment]

theorem remove (h : Represents r s) (interpreter id : String) :
    Represents (r.remove interpreter id) (s.remove interpreter id).1 where
  sessions := by
    intro other
    simp only [Store.sessions_remove, Roster.sessions_remove, h.sessions]
  nextEnvironment := (Store.nextEnvironment_remove s interpreter id).trans h.nextEnvironment

theorem sweep (h : Represents r s) (hs : s.Tidy) (inUse : EnvironmentId → Bool)
    (retention : Retention) (now : Instant) :
    Represents (r.sweep inUse retention now) (s.sweep inUse retention now).1 where
  sessions := by
    intro interpreter
    simp only [Store.sessions_sweep hs, Roster.sessions_sweep, h.sessions]
  nextEnvironment := h.nextEnvironment

theorem run (h : Represents r s) (hs : s.Tidy) (call : Store.Call) :
    Represents (r.run call) (call.run s) := by
  cases call with
  | lookup now interpreter session => exact (h.lookup now interpreter session).1
  | remove interpreter id => exact h.remove interpreter id
  | sweep inUse retention now => exact h.sweep hs inUse retention now
  | write e env =>
      -- bindings are on no shelf
      by_cases he : e < s.nextEnvironment
      · have hwritten : Represents r (s.setBindings e env) := ⟨h.sessions, h.nextEnvironment⟩
        simpa only [Store.Call.run, Roster.run, he, if_true] using hwritten
      · simpa only [Store.Call.run, Roster.run, he, if_false] using h

theorem after (h : Represents r s) (hs : s.WellFormed) (calls : List Store.Call) :
    Represents (r.after calls) (s.after calls) := by
  induction calls generalizing r s with
  | nil => exact h
  | cons call calls ih => exact ih (h.run hs.toTidy call) (hs.run call)

end Represents

/-- After any calls a new store shows the sessions of a new roster. -/
theorem represents_after (calls : List Store.Call) :
    Represents (({} : Roster).after calls) (Store.empty.after calls) :=
  Represents.after ⟨fun _ => rfl, rfl⟩ .empty calls

end CodeSessions
