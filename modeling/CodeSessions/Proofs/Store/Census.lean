import CodeSessions.Proofs.Store.WellFormed
import Mathlib.Algebra.BigOperators.Group.List.Basic
import Mathlib.Algebra.Ring.Nat
import Mathlib.Data.List.Nodup

/-!
# Censuses — all sessions of a store, and the names of their interpreters

Two listings go over all shelves at once: that of all sessions, and that of the interpreters that
have any.  Shelves that a removal has left empty count for neither.

- `mem_allSessions_iff` says whose sessions are listed,
- `allSessions_sweep` and `sessionCount_sweep` are what a sweep does to the listing,
- `mem_interpreters_iff` and `interpreters_ascending` are about the names,
- `sessionCount_eq_sum` counts the sessions interpreter by interpreter.
-/

namespace CodeSessions

/-! ## Tables without repeated keys -/

namespace Table

variable {κ α : Type} [DecidableEq κ]

theorem lookup_eq_some_iff {entries : List (κ × α)} (h : (entries.map Prod.fst).Nodup) {key : κ}
    {a : α} : lookup key entries = some a ↔ (key, a) ∈ entries := by
  induction entries with
  | nil => simp [lookup]
  | cons entry rest ih =>
      rcases entry with ⟨k, b⟩
      simp only [List.map_cons, List.nodup_cons] at h
      by_cases hk : k = key
      · subst hk
        -- the key is on no later entry
        have hlater : (k, a) ∉ rest := fun hmem => h.1 (List.mem_map_of_mem (f := Prod.fst) hmem)
        simp [lookup, hlater, eq_comm]
      · have hne : ¬ key = k := fun heq => hk heq.symm
        simp [lookup, hk, hne, ih h.2]

end Table

namespace Store

variable {s : Store}

/-! ## All sessions -/

/-- What is on the shelf of an interpreter, if it has one. -/
theorem sessions_of_mem_shelves (h : s.Tidy) {interpreter : String} {shelf : List Session}
    (hmem : (interpreter, shelf) ∈ s.shelves.entries) : s.sessions interpreter = shelf := by
  have hget : s.shelves.get? interpreter = some shelf :=
    (Table.lookup_eq_some_iff h.shelves).mpr hmem
  simp [sessions, Table.getD, hget]

theorem exists_shelf_of_mem_sessions (h : s.Tidy) {interpreter : String} {session : Session}
    (hmem : session ∈ s.sessions interpreter) :
    (interpreter, s.sessions interpreter) ∈ s.shelves.entries := by
  rcases hget : s.shelves.get? interpreter with _ | shelf
  · simp [sessions, Table.getD, hget] at hmem
  · have hshelf : (interpreter, shelf) ∈ s.shelves.entries :=
      (Table.lookup_eq_some_iff h.shelves).mp hget
    simpa only [sessions_of_mem_shelves h hshelf] using hshelf

theorem mem_allSessions_iff (h : s.Tidy) {session : Session} :
    session ∈ s.allSessions ↔ ∃ interpreter, session ∈ s.sessions interpreter := by
  simp only [allSessions, List.mem_flatMap]
  constructor
  · rintro ⟨⟨interpreter, shelf⟩, hshelf, hmem⟩
    exact ⟨interpreter, by simpa only [sessions_of_mem_shelves h hshelf] using hmem⟩
  · rintro ⟨interpreter, hmem⟩
    exact ⟨_, exists_shelf_of_mem_sessions h hmem, hmem⟩

/-- A session is found by its id, since no other session of the interpreter has it. -/
theorem sessionAt_of_mem_sessions (h : s.Tidy) {interpreter : String} {session : Session}
    (hmem : session ∈ s.sessions interpreter) :
    s.sessionAt (.session interpreter session.id) = some session := by
  rcases hfind : s.find? interpreter session.id with _ | found
  · simpa using List.find?_eq_none.mp hfind session hmem
  · have hfound : found ∈ s.sessions interpreter := List.mem_of_find?_eq_some hfind
    have hid : found.id = session.id := by simpa using List.find?_some hfind
    have hsame : found = session := List.inj_on_of_nodup_map (h.ids interpreter) hfound hmem hid
    exact hfind.trans (congrArg some hsame)

theorem environmentAt_of_mem_sessions (h : s.Tidy) {interpreter : String} {session : Session}
    (hmem : session ∈ s.sessions interpreter) :
    s.environmentAt (.session interpreter session.id) = some session.environment := by
  simp [sessionAt_of_mem_sessions h hmem]

/-- Sessions have environments that have been made. -/
theorem environment_lt (h : s.WellFormed) {interpreter : String} {session : Session}
    (hmem : session ∈ s.sessions interpreter) : session.environment < s.nextEnvironment :=
  h.made (environmentAt_of_mem_sessions h.toTidy hmem)

/-! ## Sweeps -/

/-- A sweep drops sessions from the listing and moves none. -/
theorem allSessions_sweep (s : Store) (inUse : EnvironmentId → Bool) (retention : Retention)
    (now : Instant) :
    (s.sweep inUse retention now).1.allSessions =
      s.allSessions.filter (isKept inUse retention now) := by
  have hshelves : ∀ shelves : List (String × List Session),
      ((shelves.map fun shelf => (shelf.1, shelf.2.filter (isKept inUse retention now))).filter
        fun shelf => !shelf.2.isEmpty).flatMap Prod.snd =
      (shelves.flatMap Prod.snd).filter (isKept inUse retention now) := by
    intro shelves
    -- by induction on the shelves; one that is emptied would add nothing
    induction shelves with
    | nil => rfl
    | cons shelf shelves ih =>
        by_cases hempty : shelf.2.filter (isKept inUse retention now) = []
        · simpa [hempty] using ih
        · simp [hempty, ih]
  exact hshelves s.shelves.entries

theorem sessionCount_sweep (s : Store) (inUse : EnvironmentId → Bool) (retention : Retention)
    (now : Instant) :
    (s.sweep inUse retention now).1.sessionCount + (s.sweep inUse retention now).2 =
      s.sessionCount := by
  have hkept : (s.sweep inUse retention now).1.sessionCount =
      s.allSessions.countP (isKept inUse retention now) := by
    simp only [sessionCount, allSessions_sweep, List.countP_eq_length_filter]
  have hdropped : (s.sweep inUse retention now).2 =
      s.allSessions.countP fun session => ¬ isKept inUse retention now session := by
    simp [sweep]
  have hsplit : s.sessionCount = s.allSessions.countP (isKept inUse retention now) +
      s.allSessions.countP fun session => ¬ isKept inUse retention now session :=
    List.length_eq_countP_add_countP _
  rw [hkept, hdropped, hsplit]

/-- What a sweep does depends on what is in use among the environments of sessions. -/
theorem sweep_congr {inUse inUse' : EnvironmentId → Bool}
    (h : ∀ session ∈ s.allSessions, inUse session.environment = inUse' session.environment)
    (retention : Retention) (now : Instant) :
    s.sweep inUse retention now = s.sweep inUse' retention now := by
  have hkept : ∀ session ∈ s.allSessions,
      isKept inUse retention now session = isKept inUse' retention now session := by
    intro session hmem
    simp only [isKept, h session hmem]
  have hshelves : (s.shelves.entries.map fun shelf =>
        (shelf.1, shelf.2.filter (isKept inUse retention now))) =
      s.shelves.entries.map fun shelf =>
        (shelf.1, shelf.2.filter (isKept inUse' retention now)) := by
    refine List.map_congr_left ?_
    intro shelf hshelf
    refine congrArg (shelf.1, ·) (List.filter_congr ?_)
    intro session hmem
    exact hkept session (List.mem_flatMap.mpr ⟨shelf, hshelf, hmem⟩)
  have hcount : s.allSessions.countP (fun session => !isKept inUse retention now session) =
      s.allSessions.countP fun session => !isKept inUse' retention now session := by
    refine List.countP_congr ?_
    intro session hmem
    simp only [hkept session hmem]
  simp only [sweep, hshelves, hcount]

/-! ## Interpreters -/

theorem mem_interpreters_iff (h : s.Tidy) {interpreter : String} :
    interpreter ∈ s.interpreters ↔ s.sessions interpreter ≠ [] := by
  have hshelf : interpreter ∈ s.interpreters ↔
      ∃ shelf, (interpreter, shelf) ∈ s.shelves.entries ∧ shelf ≠ [] := by
    simp [interpreters]
  constructor
  · intro hmem
    rcases hshelf.mp hmem with ⟨shelf, hentry, hne⟩
    simpa only [sessions_of_mem_shelves h hentry] using hne
  · intro hne
    rcases List.exists_mem_of_ne_nil _ hne with ⟨session, hsession⟩
    exact hshelf.mpr ⟨_, exists_shelf_of_mem_sessions h hsession, hne⟩

theorem nodup_interpreters (h : s.Tidy) : s.interpreters.Nodup := by
  have hnames : ((s.shelves.entries.filter fun shelf => !shelf.2.isEmpty).map Prod.fst).Nodup :=
    h.shelves.sublist (List.filter_sublist.map Prod.fst)
  exact (List.mergeSort_perm _ _).nodup_iff.mpr hnames

/-- The names are in ascending order, and none is there twice. -/
theorem interpreters_ascending (h : s.Tidy) : s.interpreters.Pairwise (· < ·) := by
  have hsorted : s.interpreters.Pairwise fun a b => decide (a ≤ b) = true := by
    refine List.pairwise_mergeSort ?_ ?_ _
    · intro a b c hab hbc
      simp only [decide_eq_true_eq] at hab hbc ⊢
      exact String.le_trans hab hbc
    · intro a b
      simpa using String.le_total a b
  refine (hsorted.and (nodup_interpreters h)).imp ?_
  rintro a b ⟨hle, hne⟩
  refine String.not_le.mp ?_
  intro hge
  exact hne (String.le_antisymm (by simpa using hle) hge)

/-- Counting all sessions is counting those of each interpreter. -/
theorem sessionCount_eq_sum (h : s.Tidy) :
    s.sessionCount = (s.interpreters.map fun i => (s.sessions i).length).sum := by
  -- the names are those of the shelves with sessions, in another order
  have hperm : (s.interpreters.map fun i => (s.sessions i).length).sum =
      (((s.shelves.entries.filter fun shelf => !shelf.2.isEmpty).map Prod.fst).map
        fun i => (s.sessions i).length).sum :=
    ((List.mergeSort_perm _ _).map _).sum_eq
  have hlengths : ((s.shelves.entries.filter fun shelf => !shelf.2.isEmpty).map Prod.fst).map
        (fun i => (s.sessions i).length) =
      (s.shelves.entries.filter fun shelf => !shelf.2.isEmpty).map fun shelf => shelf.2.length := by
    simp only [List.map_map]
    refine List.map_congr_left ?_
    intro shelf hmem
    have hshelf : s.sessions shelf.1 = shelf.2 :=
      sessions_of_mem_shelves h (List.mem_filter.mp hmem).1
    simp only [Function.comp_apply, hshelf]
  have hshelves : ∀ shelves : List (String × List Session),
      (shelves.flatMap Prod.snd).length =
        ((shelves.filter fun shelf => !shelf.2.isEmpty).map fun shelf => shelf.2.length).sum := by
    intro shelves
    -- an empty shelf holds nothing
    induction shelves with
    | nil => rfl
    | cons shelf shelves ih =>
        by_cases hempty : shelf.2 = []
        · simpa [hempty] using ih
        · simp [hempty, ih]
  calc
    s.sessionCount = ((s.shelves.entries.filter fun shelf => !shelf.2.isEmpty).map
        fun shelf => shelf.2.length).sum := hshelves s.shelves.entries
    _ = (s.interpreters.map fun i => (s.sessions i).length).sum := by rw [hperm, hlengths]

end Store
end CodeSessions
