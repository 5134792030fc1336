import CodeSessions.Value

/-!
# Stores — sessions and their environments

A store keeps, for every interpreter, its sessions in the order of their creation.  A session leads
to an environment, which is named by a number and holds bindings.  Cells without a session share one
environment, whatever interpreter they name; sessions of different interpreters share none.

- `Store.lookup` finds the environment of a cell, and makes the session if it is new,
- `Store.remove` drops one session, `Store.sweep` all that the retention rule gives up,
- `Store.sessions`, `Store.interpreters` and `Store.sessionCount` look at what is there.

Numbers of environments are drawn in ascending order and never used again, so an evaluation that is
under way on the environment of a dropped session meets no other session's bindings.
-/

namespace CodeSessions

/-- Milliseconds since the start of 1970, the unit of the limits that instants are compared with.  A
clock may show nanoseconds as well; these are left out. -/
abbrev Instant := Int

abbrev EnvironmentId := Nat

/-- What a session tells of itself. -/
structure SessionInfo where
  id : String
  createdAt : Instant
  lastUsedAt : Instant
  deriving DecidableEq, Repr

structure Session extends SessionInfo where
  environment : EnvironmentId
  deriving DecidableEq, Repr

namespace Session

/-- Notes a use of the session with the given id; any other one stays as it is. -/
def touch (now : Instant) (id : String) (session : Session) : Session :=
  if session.id = id then { session with lastUsedAt := now } else session

variable {now : Instant} {id : String} {session : Session}

theorem touch_of_eq (h : session.id = id) :
    session.touch now id = { session with lastUsedAt := now } :=
  if_pos h

theorem touch_of_ne (h : session.id ≠ id) : session.touch now id = session :=
  if_neg h

@[simp]
theorem touch_id : (session.touch now id).id = session.id := by
  unfold touch
  split <;> rfl

@[simp]
theorem touch_createdAt : (session.touch now id).createdAt = session.createdAt := by
  unfold touch
  split <;> rfl

@[simp]
theorem touch_environment : (session.touch now id).environment = session.environment := by
  unfold touch
  split <;> rfl

end Session

/-! ## Retention -/

/-- Whether a session is given up at a given time. -/
abbrev Retention := SessionInfo → Instant → Bool

namespace Retention

/-- Sessions are kept for ever. -/
def unbounded : Retention := fun _ _ => false

/-- Sessions are given up when they have not been used for longer than `limit` milliseconds. -/
def idle (limit : Nat) : Retention := fun session now =>
  decide ((limit : Int) < now - session.lastUsedAt)

def ofLimit : Option Nat → Retention
  | none => unbounded
  | some limit => idle limit

theorem idle_eq_true_iff {limit : Nat} {info : SessionInfo} {now : Instant} :
    idle limit info now = true ↔ info.lastUsedAt + (limit : Int) < now := by
  simp only [idle, decide_eq_true_eq]
  exact ⟨Int.add_lt_of_lt_sub_left, Int.lt_sub_left_of_add_lt⟩

end Retention

/-! ## Stores -/

structure Store where
  /-- The sessions of each interpreter, oldest first. -/
  shelves : Table String (List Session) := .empty
  environments : Table EnvironmentId Bindings := .empty
  /-- The number of the next new environment. -/
  nextEnvironment : EnvironmentId := 1

namespace Store

def empty : Store := {}

/-- The environment of all cells without a session. -/
def sharedEnvironment : EnvironmentId := 0

/-! ## Bindings -/

def bindings (s : Store) (e : EnvironmentId) : Bindings :=
  s.environments.getD e .empty

def setBindings (s : Store) (e : EnvironmentId) (env : Bindings) : Store :=
  { s with environments := s.environments.set e env }

/-! ## Sessions -/

/-- The sessions of an interpreter in the order of their creation. -/
def sessions (s : Store) (interpreter : String) : List Session :=
  s.shelves.getD interpreter []

def find? (s : Store) (interpreter id : String) : Option Session :=
  (s.sessions interpreter).find? fun session => session.id == id

/-- The interpreters that have sessions, in ascending order. -/
def interpreters (s : Store) : List String :=
  ((s.shelves.entries.filter fun shelf => !shelf.2.isEmpty).map Prod.fst).mergeSort
    fun a b => decide (a ≤ b)

/-- The sessions of all interpreters. -/
def allSessions (s : Store) : List Session :=
  s.shelves.entries.flatMap Prod.snd

def sessionCount (s : Store) : Nat :=
  s.allSessions.length

/-- Notes a use of a session, which keeps its place. -/
def touch (s : Store) (now : Instant) (interpreter id : String) : Store :=
  { s with
    shelves := s.shelves.set interpreter
      ((s.sessions interpreter).map (Session.touch now id)) }

/-- Puts a new session with an empty environment last. -/
def create (s : Store) (now : Instant) (interpreter id : String) : Store :=
  { s with
    shelves := s.shelves.set interpreter
      (s.sessions interpreter ++
        [{ id, createdAt := now, lastUsedAt := now, environment := s.nextEnvironment }])
    nextEnvironment := s.nextEnvironment + 1 }

/-- The environment of a session, which is made if it is not there.  An empty id is no session. -/
def lookup (s : Store) (now : Instant) (interpreter : String) (session : Option String) :
    Store × EnvironmentId :=
  match session with
  | none => (s, sharedEnvironment)
  | some id =>
      if id.isEmpty then (s, sharedEnvironment)
      else
        match s.find? interpreter id with
        | some session => (s.touch now interpreter id, session.environment)
        -- the next number is one that no environment has had
        | none => (s.create now interpreter id, s.nextEnvironment)

/-- Drops a session, and tells whether it was there. -/
def remove (s : Store) (interpreter id : String) : Store × Bool :=
  match s.find? interpreter id with
  | none => (s, false)
  | some _ =>
      ({ s with
          shelves := s.shelves.set interpreter
            ((s.sessions interpreter).filter fun session => session.id ≠ id) }, true)

/-! ## Sweeps -/

/-- Whether a sweep leaves a session where it is. -/
def isKept (inUse : EnvironmentId → Bool) (retention : Retention) (now : Instant)
    (session : Session) : Bool :=
  inUse session.environment || !retention session.toSessionInfo now

/-- Drops the sessions that are not in use and that the retention rule gives up, and interpreters
that have none left; tells how many sessions were dropped. -/
def sweep (s : Store) (inUse : EnvironmentId → Bool) (retention : Retention) (now : Instant) :
    Store × Nat :=
  let kept := isKept inUse retention now
  ({ s with
      shelves := ⟨(s.shelves.entries.map fun shelf => (shelf.1, shelf.2.filter kept)).filter
        fun shelf => !shelf.2.isEmpty⟩ },
    s.allSessions.countP fun session => !kept session)

end Store
end CodeSessions
