import CodeSessions.Store

/-!
# Keys — a store as a map from keys to sessions

A `Key` is what decides which environment a cell gets: one key for all cells without a session, and
one for each session of each interpreter.  This file restates the operations of a store as
operations on the map from keys to sessions.

- `Store.sessionAt`, `Store.environmentAt`, `Store.infoAt` and `Store.bindingsAt` look a key up,
- `sessionAt_touch`, `sessionAt_create`, `sessionAt_remove` and `sessionAt_sweep` say what the
  operations do to them,
- `environmentAt_of_dropped`: what is behind a key when sessions have been dropped was there before.

Only a sweep needs more than the definitions: it filters lists, so it acts on a key alone only
if no shelf and no session on a shelf is there twice (`Store.Tidy`).
-/

namespace CodeSessions

/-- What the environment of a cell depends on. -/
inductive Key
  | shared
  | session (interpreter id : String)
  deriving DecidableEq, Repr

/-- The key of a cell.  An empty id is no session. -/
def Key.ofCell (interpreter : String) : Option String → Key
  | none => .shared
  | some id => if id.isEmpty then .shared else .session interpreter id

namespace Store

/-! ## Looking a key up -/

def sessionAt (s : Store) : Key → Option Session
  | .shared => none
  | .session interpreter id => s.find? interpreter id

/-- The environment behind a key, if there is one yet. -/
def environmentAt (s : Store) : Key → Option EnvironmentId
  | .shared => some sharedEnvironment
  | .session interpreter id => (s.find? interpreter id).map Session.environment

def infoAt (s : Store) (k : Key) : Option SessionInfo :=
  (s.sessionAt k).map Session.toSessionInfo

/-- The bindings that a cell with the key would start from. -/
def bindingsAt (s : Store) (k : Key) : Bindings :=
  match s.environmentAt k with
  | none => .empty
  | some e => s.bindings e

@[simp] theorem sessionAt_shared (s : Store) : s.sessionAt .shared = none := rfl

@[simp] theorem environmentAt_shared (s : Store) :
    s.environmentAt .shared = some sharedEnvironment := rfl

@[simp] theorem environmentAt_session (s : Store) (interpreter id : String) :
    s.environmentAt (.session interpreter id) =
      (s.sessionAt (.session interpreter id)).map Session.environment := rfl

/-- Two stores that agree on the session of a key agree on its environment. -/
theorem environmentAt_congr {s t : Store} {k : Key} (h : s.sessionAt k = t.sessionAt k) :
    s.environmentAt k = t.environmentAt k := by
  cases k with
  | shared => rfl
  | session interpreter id => simp only [environmentAt_session, h]

/-- Two stores that agree on the session of a key and on all bindings agree on its bindings. -/
theorem bindingsAt_congr {s t : Store} {k : Key} (h : s.sessionAt k = t.sessionAt k)
    (hb : s.bindings = t.bindings) : s.bindingsAt k = t.bindingsAt k := by
  have he : s.environmentAt k = t.environmentAt k := environmentAt_congr h
  simp only [bindingsAt, he, hb]

/-! ## Bindings -/

@[simp] theorem bindings_setBindings (s : Store) (e other : EnvironmentId) (env : Bindings) :
    (s.setBindings e env).bindings other = if e = other then env else s.bindings other := by
  by_cases h : e = other <;> simp [bindings, setBindings, Table.getD, h]

@[simp] theorem sessions_setBindings (s : Store) (e : EnvironmentId) (env : Bindings)
    (interpreter : String) :
    (s.setBindings e env).sessions interpreter = s.sessions interpreter := rfl

@[simp] theorem sessionAt_setBindings (s : Store) (e : EnvironmentId) (env : Bindings) (k : Key) :
    (s.setBindings e env).sessionAt k = s.sessionAt k := by
  cases k <;> rfl

@[simp] theorem environmentAt_setBindings (s : Store) (e : EnvironmentId) (env : Bindings)
    (k : Key) : (s.setBindings e env).environmentAt k = s.environmentAt k := by
  cases k <;> rfl

/-! ## Touching and creating -/

/-- The sessions of all interpreters after one shelf has been replaced. -/
theorem sessions_set (s : Store) (interpreter other : String) (shelf : List Session) (n : Nat) :
    ({ s with shelves := s.shelves.set interpreter shelf, nextEnvironment := n } : Store).sessions
        other =
      if interpreter = other then shelf else s.sessions other := by
  by_cases h : interpreter = other <;> simp [sessions, Table.getD, h]

theorem sessions_touch (s : Store) (now : Instant) (interpreter id other : String) :
    (s.touch now interpreter id).sessions other =
      if interpreter = other then (s.sessions interpreter).map (Session.touch now id)
      else s.sessions other :=
  sessions_set s interpreter other _ s.nextEnvironment

theorem sessions_create (s : Store) (now : Instant) (interpreter id other : String) :
    (s.create now interpreter id).sessions other =
      if interpreter = other then
        s.sessions interpreter ++
          [{ id, createdAt := now, lastUsedAt := now, environment := s.nextEnvironment }]
      else s.sessions other :=
  sessions_set s interpreter other _ (s.nextEnvironment + 1)

/-- A touch keeps the ids, so the same session is found in both lists. -/
theorem find?_touched (now : Instant) (id other : String) (shelf : List Session) :
    (shelf.map (Session.touch now id)).find? (fun session => session.id == other) =
      (shelf.find? fun session => session.id == other).map (Session.touch now id) := by
  simp only [List.find?_map, Function.comp_def, Session.touch_id]

/-- Keys of different interpreters are different. -/
theorem session_ne_of_interpreter {interpreter other id otherId : String}
    (h : ¬ interpreter = other) : Key.session other otherId ≠ .session interpreter id := by
  intro heq
  injection heq with heq
  exact h heq.symm

/-- A touch changes the time of one session and nothing else. -/
theorem sessionAt_touch (s : Store) (now : Instant) (interpreter id : String) (k : Key) :
    (s.touch now interpreter id).sessionAt k =
      if k = .session interpreter id then
        (s.sessionAt k).map fun session => { session with lastUsedAt := now }
      else s.sessionAt k := by
  cases k with
  | shared => rfl
  | session j other =>
      by_cases hi : interpreter = j
      · subst hi
        have hfind : (s.touch now interpreter id).find? interpreter other =
            (s.find? interpreter other).map (Session.touch now id) := by
          simp only [find?, sessions_touch, if_true, find?_touched]
        simp only [sessionAt, hfind, Key.session.injEq, true_and]
        rcases hfound : s.find? interpreter other with _ | session
        · simp
        · have hid : session.id = other := by simpa using List.find?_some hfound
          subst hid
          simp only [Option.map_some, Session.touch]
          split <;> rfl
      · simp only [sessionAt, find?, sessions_touch, hi, session_ne_of_interpreter hi, if_false]

/-- Creating an absent session adds it and changes no other. -/
theorem sessionAt_create {s : Store} {interpreter id : String}
    (h : s.find? interpreter id = none) (now : Instant) (k : Key) :
    (s.create now interpreter id).sessionAt k =
      if k = .session interpreter id then
        some { id, createdAt := now, lastUsedAt := now, environment := s.nextEnvironment }
      else s.sessionAt k := by
  cases k with
  | shared => rfl
  | session j other =>
      by_cases hi : interpreter = j
      · subst hi
        simp only [sessionAt, find?, sessions_create, if_true, List.find?_append]
        by_cases hid : other = id
        · -- no session in front of the new one has its id
          have habsent :
              (s.sessions interpreter).find? (fun session => session.id == id) = none := h
          simp [hid, habsent]
        · have hne : ¬ id = other := fun heq => hid heq.symm
          simp [hid, hne]
      · simp only [sessionAt, find?, sessions_create, hi, session_ne_of_interpreter hi, if_false]

@[simp] theorem bindings_touch (s : Store) (now : Instant) (interpreter id : String) :
    (s.touch now interpreter id).bindings = s.bindings := rfl

@[simp] theorem bindings_create (s : Store) (now : Instant) (interpreter id : String) :
    (s.create now interpreter id).bindings = s.bindings := rfl

/-! ## Lookups -/

/-- A lookup leaves the store alone, touches a session, or creates one. -/
theorem lookup_cases (s : Store) (now : Instant) (interpreter : String) (session : Option String) :
    (Key.ofCell interpreter session = .shared ∧
      s.lookup now interpreter session = (s, sharedEnvironment)) ∨
    (∃ id found, id ≠ "" ∧ Key.ofCell interpreter session = .session interpreter id ∧
      s.find? interpreter id = some found ∧
      s.lookup now interpreter session = (s.touch now interpreter id, found.environment)) ∨
    (∃ id, id ≠ "" ∧ Key.ofCell interpreter session = .session interpreter id ∧
      s.find? interpreter id = none ∧
      s.lookup now interpreter session = (s.create now interpreter id, s.nextEnvironment)) := by
  cases session with
  | none => exact .inl ⟨rfl, rfl⟩
  | some id =>
      by_cases hid : id.isEmpty = true
      · left
        simp [Key.ofCell, lookup, hid]
      · right
        have hne : id ≠ "" := by
          intro h
          simp [h] at hid
        have hkey : Key.ofCell interpreter (some id) = .session interpreter id := by
          simp [Key.ofCell, hid]
        rcases hfind : s.find? interpreter id with _ | found
        · exact .inr ⟨id, hne, hkey, hfind, by simp [lookup, hid, hfind]⟩
        · exact .inl ⟨id, found, hne, hkey, hfind, by simp [lookup, hid, hfind]⟩

@[simp] theorem bindings_lookup (s : Store) (now : Instant) (interpreter : String)
    (session : Option String) : (s.lookup now interpreter session).1.bindings = s.bindings := by
  rcases lookup_cases s now interpreter session with
    ⟨_, h⟩ | ⟨_, _, _, _, _, h⟩ | ⟨_, _, _, _, h⟩ <;> simp [h]

/-- A lookup leaves the sessions of other interpreters alone. -/
theorem sessions_lookup_of_ne (s : Store) (now : Instant) {interpreter other : String}
    (session : Option String) (hne : interpreter ≠ other) :
    (s.lookup now interpreter session).1.sessions other = s.sessions other := by
  rcases lookup_cases s now interpreter session with
    ⟨_, h⟩ | ⟨id, found, _, _, _, h⟩ | ⟨id, _, _, _, h⟩
  · simp only [h]
  · simp only [h, sessions_touch, hne, if_false]
  · simp only [h, sessions_create, hne, if_false]

/-- A session that is looked up notes the time and nothing else. -/
theorem sessions_lookup_of_found {s : Store} {interpreter id : String} (hid : id ≠ "")
    {found : Session} (hfind : s.find? interpreter id = some found) (now : Instant) :
    (s.lookup now interpreter (some id)).1.sessions interpreter =
      (s.sessions interpreter).map (Session.touch now id) := by
  simp [lookup, hid, hfind, sessions_touch]

theorem sessions_lookup_of_absent {s : Store} {interpreter id : String} (hid : id ≠ "")
    (hfind : s.find? interpreter id = none) (now : Instant) :
    (s.lookup now interpreter (some id)).1.sessions interpreter = s.sessions interpreter ++
      [{ id, createdAt := now, lastUsedAt := now, environment := s.nextEnvironment }] := by
  simp [lookup, hid, hfind, sessions_create]

/-- The environment of a cell is the one behind its key, or else a new one. -/
theorem lookup_environment (s : Store) (now : Instant) (interpreter : String)
    (session : Option String) :
    (s.lookup now interpreter session).2 =
      (s.environmentAt (.ofCell interpreter session)).getD s.nextEnvironment := by
  rcases lookup_cases s now interpreter session with
    ⟨hkey, h⟩ | ⟨id, found, _, hkey, hfind, h⟩ | ⟨id, _, hkey, hfind, h⟩
  · simp [h, hkey]
  · simp [h, hkey, sessionAt, hfind]
  · simp [h, hkey, sessionAt, hfind]

theorem sessionAt_lookup_of_ne {s : Store} {interpreter : String} {session : Option String}
    {k : Key} (hk : k ≠ .ofCell interpreter session) (now : Instant) :
    (s.lookup now interpreter session).1.sessionAt k = s.sessionAt k := by
  rcases lookup_cases s now interpreter session with
    ⟨_, h⟩ | ⟨id, found, _, hkey, _, h⟩ | ⟨id, _, hkey, hfind, h⟩
  · simp only [h]
  · simp only [hkey] at hk
    simp only [h, sessionAt_touch, hk, if_false]
  · simp only [hkey] at hk
    simp only [h, sessionAt_create hfind, hk, if_false]

/-- Afterwards the environment is the one behind the key. -/
theorem environmentAt_lookup_self (s : Store) (now : Instant) (interpreter : String)
    (session : Option String) :
    (s.lookup now interpreter session).1.environmentAt (.ofCell interpreter session) =
      some (s.lookup now interpreter session).2 := by
  rcases lookup_cases s now interpreter session with
    ⟨hkey, h⟩ | ⟨id, found, _, hkey, hfind, h⟩ | ⟨id, _, hkey, hfind, h⟩
  · simp only [h, hkey, environmentAt_shared]
  · have hsession : s.sessionAt (.session interpreter id) = some found := hfind
    simp [h, hkey, sessionAt_touch, hsession]
  · simp [h, hkey, sessionAt_create hfind]

/-- Other keys keep their environments. -/
theorem environmentAt_lookup_of_ne {s : Store} {interpreter : String} {session : Option String}
    {k : Key} (hk : k ≠ .ofCell interpreter session) (now : Instant) :
    (s.lookup now interpreter session).1.environmentAt k = s.environmentAt k :=
  environmentAt_congr (sessionAt_lookup_of_ne hk now)

/-- A lookup takes no environment away. -/
theorem environmentAt_lookup_of_some {s : Store} {k : Key} {e : EnvironmentId}
    (hk : s.environmentAt k = some e) (now : Instant) (interpreter : String)
    (session : Option String) :
    (s.lookup now interpreter session).1.environmentAt k = some e := by
  by_cases hself : k = .ofCell interpreter session
  · subst hself
    have hfound := lookup_environment s now interpreter session
    simp only [hk, Option.getD_some] at hfound
    simpa only [hfound] using environmentAt_lookup_self s now interpreter session
  · exact (environmentAt_lookup_of_ne hself now).trans hk

theorem nextEnvironment_lookup (s : Store) (now : Instant) (interpreter : String)
    (session : Option String) :
    (s.lookup now interpreter session).1.nextEnvironment =
      if s.environmentAt (.ofCell interpreter session) = none then s.nextEnvironment + 1
      else s.nextEnvironment := by
  rcases lookup_cases s now interpreter session with
    ⟨hkey, h⟩ | ⟨id, found, _, hkey, hfind, h⟩ | ⟨id, _, hkey, hfind, h⟩
  · simp [h, hkey]
  · simp [h, hkey, sessionAt, hfind, touch]
  · simp [h, hkey, sessionAt, hfind, create]

theorem nextEnvironment_le_lookup (s : Store) (now : Instant) (interpreter : String)
    (session : Option String) :
    s.nextEnvironment ≤ (s.lookup now interpreter session).1.nextEnvironment := by
  have hnext := nextEnvironment_lookup s now interpreter session
  split at hnext
  · simp [hnext]
  · simp [hnext]

/-! ## Removals and sweeps -/

@[simp] theorem bindings_remove (s : Store) (interpreter id : String) :
    (s.remove interpreter id).1.bindings = s.bindings := by
  rcases hfind : s.find? interpreter id with _ | session
  · simp only [remove, hfind]
  · simp only [remove, hfind]
    rfl

@[simp] theorem nextEnvironment_remove (s : Store) (interpreter id : String) :
    (s.remove interpreter id).1.nextEnvironment = s.nextEnvironment := by
  rcases hfind : s.find? interpreter id with _ | session
  · simp only [remove, hfind]
  · simp only [remove, hfind]

theorem sessions_remove (s : Store) (interpreter id other : String) :
    (s.remove interpreter id).1.sessions other =
      if interpreter = other then (s.sessions other).filter fun session => session.id ≠ id
      else s.sessions other := by
  rcases hfind : s.find? interpreter id with _ | session
  · -- nothing is removed, and there is nothing that the filter would drop
    have habsent : ∀ session ∈ s.sessions interpreter, session.id ≠ id := by
      intro session hmem
      simpa using List.find?_eq_none.mp hfind session hmem
    by_cases hi : interpreter = other
    · subst hi
      have hall : (s.sessions interpreter).filter (fun session => session.id ≠ id) =
          s.sessions interpreter := by
        refine List.filter_eq_self.mpr ?_
        intro session hmem
        simpa using habsent session hmem
      simpa only [remove, hfind, if_true] using hall.symm
    · simp only [remove, hfind, hi, if_false]
  · have hset := sessions_set s interpreter other
      ((s.sessions interpreter).filter fun session => session.id ≠ id) s.nextEnvironment
    simp only [remove, hfind]
    refine hset.trans ?_
    by_cases hi : interpreter = other <;> simp [hi]

/-- A removal drops one session and no other. -/
theorem sessionAt_remove (s : Store) (interpreter id : String) (k : Key) :
    (s.remove interpreter id).1.sessionAt k =
      if k = .session interpreter id then none else s.sessionAt k := by
  cases k with
  | shared => rfl
  | session j other =>
      by_cases hi : interpreter = j
      · subst hi
        simp only [sessionAt, find?, sessions_remove, if_true, List.find?_filter]
        by_cases hid : other = id
        · simp [hid]
        · -- the filter drops nothing that is looked for
          have hkey : Key.session interpreter other ≠ .session interpreter id := by simpa using hid
          simp only [hkey, if_false]
          congr 1
          funext session
          by_cases hself : session.id = other <;> simp [hself, hid]
      · simp only [sessionAt, find?, sessions_remove, hi, session_ne_of_interpreter hi, if_false]

/-- No shelf is there twice, and no session is on a shelf twice. -/
structure Tidy (s : Store) : Prop where
  shelves : s.shelves.keys.Nodup
  ids : ∀ interpreter, ((s.sessions interpreter).map fun session => session.id).Nodup

@[simp] theorem bindings_sweep (s : Store) (inUse : EnvironmentId → Bool) (retention : Retention)
    (now : Instant) : (s.sweep inUse retention now).1.bindings = s.bindings := rfl

@[simp] theorem nextEnvironment_sweep (s : Store) (inUse : EnvironmentId → Bool)
    (retention : Retention) (now : Instant) :
    (s.sweep inUse retention now).1.nextEnvironment = s.nextEnvironment := rfl

/-- A sweep keeps the order of the sessions it keeps. -/
theorem sessions_sweep {s : Store} (h : s.Tidy) (inUse : EnvironmentId → Bool)
    (retention : Retention) (now : Instant) (interpreter : String) :
    (s.sweep inUse retention now).1.sessions interpreter =
      (s.sessions interpreter).filter (isKept inUse retention now) := by
  -- what is on the one shelf of the interpreter decides, since no other shelf has its name
  have hshelf : (s.sweep inUse retention now).1.shelves.get? interpreter =
      ((s.shelves.get? interpreter).map (List.filter (isKept inUse retention now))).filter
        fun shelf => !shelf.isEmpty :=
    Table.lookup_filterValues h.shelves (List.filter (isKept inUse retention now))
      (fun shelf => !shelf.isEmpty) interpreter
  simp only [sessions, Table.getD, hshelf]
  rcases s.shelves.get? interpreter with _ | shelf
  · rfl
  · -- an emptied shelf is gone, and reads as empty all the same
    by_cases hempty : shelf.filter (isKept inUse retention now) = []
    · simp [Option.filter, hempty]
    · simp [Option.filter, hempty]

theorem find?_filter_of_nodup {shelf : List Session}
    (h : (shelf.map fun session => session.id).Nodup) (keep : Session → Bool) (id : String) :
    (shelf.filter keep).find? (fun session => session.id == id) =
      (shelf.find? fun session => session.id == id).filter keep := by
  induction shelf with
  | nil => rfl
  | cons session rest ih =>
      simp only [List.map_cons, List.nodup_cons] at h
      have hrest := ih h.2
      by_cases hself : session.id = id
      · by_cases hkeep : keep session = true
        · simp [hself, hkeep, Option.filter]
        · -- nothing behind it has its id
          have hgone : rest.find? (fun other => other.id == id) = none := by
            refine List.find?_eq_none.mpr ?_
            intro other hmem hother
            have hid : other.id = session.id := by simpa [hself] using hother
            exact h.1 (hid ▸ List.mem_map_of_mem hmem)
          simp only [hgone] at hrest
          simpa [hself, hkeep, Option.filter] using hrest
      · by_cases hkeep : keep session = true
        · simpa [hself, hkeep] using hrest
        · simpa [hself, hkeep] using hrest

/-- A sweep decides on each session alone. -/
theorem sessionAt_sweep {s : Store} (h : s.Tidy) (inUse : EnvironmentId → Bool)
    (retention : Retention) (now : Instant) (k : Key) :
    (s.sweep inUse retention now).1.sessionAt k =
      (s.sessionAt k).filter (isKept inUse retention now) := by
  cases k with
  | shared => rfl
  | session interpreter id =>
      simp only [sessionAt, find?, sessions_sweep h]
      exact find?_filter_of_nodup (h.ids interpreter) _ id

/-- A removal keeps a session as it is or drops it. -/
theorem sessionAt_remove_cases (s : Store) (interpreter id : String) (k : Key) :
    (s.remove interpreter id).1.sessionAt k = s.sessionAt k ∨
      (s.remove interpreter id).1.sessionAt k = none := by
  have hremove := sessionAt_remove s interpreter id k
  by_cases hself : k = .session interpreter id
  · right
    simpa only [hself, if_true] using hremove
  · left
    simpa only [hself, if_false] using hremove

/-- A sweep keeps a session as it is or drops it. -/
theorem sessionAt_sweep_cases {s : Store} (h : s.Tidy) (inUse : EnvironmentId → Bool)
    (retention : Retention) (now : Instant) (k : Key) :
    (s.sweep inUse retention now).1.sessionAt k = s.sessionAt k ∨
      (s.sweep inUse retention now).1.sessionAt k = none := by
  have hsweep := sessionAt_sweep h inUse retention now k
  rcases hsession : s.sessionAt k with _ | session
  · left
    simpa [hsession] using hsweep
  · by_cases hkept : isKept inUse retention now session = true
    · left
      simpa [hsession, Option.filter, hkept] using hsweep
    · right
      simpa [hsession, Option.filter, hkept] using hsweep

/-- What is behind a key after sessions have been dropped was behind it before. -/
theorem environmentAt_of_dropped {s t : Store} {k : Key} {e : EnvironmentId}
    (hsession : t.sessionAt k = s.sessionAt k ∨ t.sessionAt k = none)
    (hk : t.environmentAt k = some e) : s.environmentAt k = some e := by
  cases k with
  | shared => exact hk
  | session interpreter id =>
      rcases hsession with hsame | hnone
      · simpa only [environmentAt_session, hsame] using hk
      · simp [hnone] at hk

end Store
end CodeSessions
