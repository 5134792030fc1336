import CodeSessions.Proofs.Store.Census

/-!
# Holdings — the environments that a store refers to

A store refers to the shared environment and to those of its sessions.  This file counts these
references: what each operation adds to them and takes from them.

- `nodup_holdings`: a well-formed store refers to every environment once at most, so that
  `one_lt_count_iff` tells when others refer to it,
- `count_holdings_lookup`, `count_holdings_remove` and `count_holdings_sweep` are the operations.
-/

namespace CodeSessions

/-- Leaving out the only member with its key takes that member from every count. -/
theorem countP_filter_key_ne {α κ : Type} [DecidableEq κ] {key : α → κ} {xs : List α}
    (h : (xs.map key).Nodup) {x : α} (hx : x ∈ xs) (p : α → Bool) :
    (xs.filter fun y => key y ≠ key x).countP p + (if p x then 1 else 0) = xs.countP p := by
  rcases List.append_of_mem hx with ⟨before, behind, rfl⟩
  have hother : ∀ y ∈ before ++ behind, key y ≠ key x := by
    intro y hy heq
    have hnot := (List.nodup_middle.mp (by simpa using h)).notMem
    exact hnot (heq ▸ by simpa using List.mem_map_of_mem (f := key) hy)
  have hkept : ∀ ys : List α, (∀ y ∈ ys, y ∈ before ++ behind) →
      ys.filter (fun y => key y ≠ key x) = ys := by
    intro ys hys
    refine List.filter_eq_self.mpr ?_
    intro y hy
    simpa using hother y (hys y hy)
  have hbefore := hkept before (fun y hy => List.mem_append_left _ hy)
  have hself : (x :: behind).filter (fun y => key y ≠ key x) = behind := by
    have hbehind := hkept behind (fun y hy => List.mem_append_right _ hy)
    simpa using hbehind
  simp only [List.filter_append, hbefore, hself, List.countP_append, List.countP_cons,
    Nat.add_assoc]

namespace Store

variable {s : Store}

/-- The environments that a store keeps, one entry for each reference. -/
def holdings (s : Store) : List EnvironmentId :=
  sharedEnvironment :: s.allSessions.map Session.environment

theorem lt_of_mem_holdings (h : s.WellFormed) {e : EnvironmentId} (he : e ∈ s.holdings) :
    e < s.nextEnvironment := by
  rcases List.mem_cons.mp he with hshared | hsessions
  · exact h.made (hshared ▸ environmentAt_shared s)
  · rcases List.mem_map.mp hsessions with ⟨session, hmem, rfl⟩
    rcases (mem_allSessions_iff h.toTidy).mp hmem with ⟨interpreter, hmem⟩
    exact environment_lt h hmem

theorem nodup_holdings (h : s.WellFormed) : s.holdings.Nodup := by
  have hbehind : ∀ {interpreter session}, session ∈ s.sessions interpreter →
      s.environmentAt (.session interpreter session.id) = some session.environment :=
    fun hmem => environmentAt_of_mem_sessions h.toTidy hmem
  refine List.nodup_cons.mpr ⟨?_, ?_⟩
  · -- the shared environment is behind its own key
    intro hmem
    rcases List.mem_map.mp hmem with ⟨session, hsession, he⟩
    rcases (mem_allSessions_iff h.toTidy).mp hsession with ⟨interpreter, hsession⟩
    cases h.separate (hbehind hsession) (he ▸ environmentAt_shared s)
  · refine List.pairwise_map.mpr (List.pairwise_flatMap.mpr ⟨?_, ?_⟩)
    · rintro ⟨interpreter, shelf⟩ hshelf
      have hsessions := sessions_of_mem_shelves h.toTidy hshelf
      have hids := h.ids interpreter
      rw [hsessions] at hids
      -- on one shelf the ids differ
      refine (List.pairwise_map.mp hids).imp_of_mem ?_
      intro a b ha hb hne he
      have hkeys := h.separate (hbehind (hsessions ▸ ha)) (he ▸ hbehind (hsessions ▸ hb))
      injection hkeys with _ hid
      exact hne hid
    · -- on different shelves the interpreters do
      refine (List.pairwise_map.mp h.shelves).imp_of_mem ?_
      rintro ⟨interpreter, shelf⟩ ⟨other, otherShelf⟩ hshelf hother hne a ha b hb he
      have hmemA : a ∈ s.sessions interpreter := sessions_of_mem_shelves h.toTidy hshelf ▸ ha
      have hmemB : b ∈ s.sessions other := sessions_of_mem_shelves h.toTidy hother ▸ hb
      have hkeys := h.separate (hbehind hmemA) (he ▸ hbehind hmemB)
      injection hkeys with hinterpreter
      exact hne hinterpreter

/-- The store refers once to what it holds, so a second reference is somebody else's. -/
theorem one_lt_count_iff (h : s.WellFormed) {e : EnvironmentId} (he : e ∈ s.holdings)
    {held : List EnvironmentId} : 1 < s.holdings.count e + held.count e ↔ e ∈ held := by
  have hone : s.holdings.count e = 1 := List.count_eq_one_of_mem (nodup_holdings h) he
  rw [hone, ← List.count_pos_iff]
  omega

/-! ## What operations do -/

/-- Replacing the sessions of an interpreter replaces their share of every count. -/
theorem countP_allSessions_set {t : Store} {interpreter : String} {shelf : List Session}
    (h : t.shelves = s.shelves.set interpreter shelf) (p : Session → Bool) :
    t.allSessions.countP p + (s.sessions interpreter).countP p =
      s.allSessions.countP p + shelf.countP p := by
  have hentries : ∀ entries : List (String × List Session),
      ((Table.store interpreter shelf entries).flatMap Prod.snd).countP p +
          ((Table.lookup interpreter entries).getD []).countP p =
        (entries.flatMap Prod.snd).countP p + shelf.countP p := by
    intro entries
    induction entries with
    | nil => simp [Table.store, Table.lookup]
    | cons entry entries ih =>
        rcases entry with ⟨name, old⟩
        by_cases hname : name = interpreter
        · simp [Table.store, Table.lookup, hname]
          omega
        · simp [Table.store, Table.lookup, hname]
          omega
  simp only [allSessions, h]
  exact hentries s.shelves.entries

theorem count_map_environment (sessions : List Session) (e : EnvironmentId) :
    (sessions.map Session.environment).count e =
      sessions.countP fun session => session.environment == e := by
  simp only [List.count, List.countP_map]
  rfl

theorem count_holdings (s : Store) (e : EnvironmentId) :
    s.holdings.count e =
      s.allSessions.countP (fun session => session.environment == e) +
        if sharedEnvironment = e then 1 else 0 := by
  simp only [holdings, List.count_cons, count_map_environment, beq_iff_eq]

/-- A lookup makes the store refer to a new environment, and changes no other count. -/
theorem count_holdings_lookup (s : Store) (now : Instant) (interpreter : String)
    (session : Option String) (e : EnvironmentId) :
    (s.lookup now interpreter session).1.holdings.count e =
      s.holdings.count e +
        if (s.environmentAt (.ofCell interpreter session)).isNone ∧ s.nextEnvironment = e then 1
        else 0 := by
  simp only [count_holdings]
  rcases lookup_cases s now interpreter session with
    ⟨hkey, hs⟩ | ⟨id, found, _, hkey, hfind, hs⟩ | ⟨id, _, hkey, hfind, hs⟩
  · simp [hs, hkey]
  · have hset := countP_allSessions_set (s := s) (t := s.touch now interpreter id) rfl
      fun session => session.environment == e
    -- a touch keeps the environment
    have hsame : (fun session : Session => session.environment == e) ∘ Session.touch now id =
        fun session => session.environment == e := by
      funext session
      simp
    simp only [List.countP_map, hsame] at hset
    have hfound : s.sessionAt (.session interpreter id) = some found := hfind
    simp only [hs, hkey, environmentAt_session, hfound, Option.map_some, Option.isNone_some,
      Bool.false_eq_true, false_and, if_false]
    omega
  · have hset := countP_allSessions_set (s := s) (t := s.create now interpreter id) rfl
      fun session => session.environment == e
    have habsent : s.sessionAt (.session interpreter id) = none := hfind
    simp only [List.countP_append, List.countP_singleton, beq_iff_eq] at hset
    simp only [hs, hkey, environmentAt_session, habsent, Option.map_none, Option.isNone_none,
      true_and]
    omega

/-- A removal takes the reference to the environment of the session that it drops. -/
theorem count_holdings_remove (h : s.Tidy) {interpreter id : String} {session : Session}
    (hfind : s.find? interpreter id = some session) (e : EnvironmentId) :
    (s.remove interpreter id).1.holdings.count e + (if session.environment = e then 1 else 0) =
      s.holdings.count e := by
  have hmem : session ∈ s.sessions interpreter := List.mem_of_find?_eq_some hfind
  have hid : session.id = id := by simpa using List.find?_some hfind
  have hshelves : (s.remove interpreter id).1.shelves = s.shelves.set interpreter
      ((s.sessions interpreter).filter fun other => other.id ≠ id) := by
    simp only [remove, hfind]
  have hset := countP_allSessions_set hshelves fun session => session.environment == e
  have hremoved := countP_filter_key_ne (h.ids interpreter) hmem
    fun session => session.environment == e
  simp only [hid, beq_iff_eq] at hremoved
  simp only [count_holdings]
  omega

/-- A sweep takes the references to the environments of the sessions that it drops. -/
theorem count_holdings_sweep (s : Store) (inUse : EnvironmentId → Bool) (retention : Retention)
    (now : Instant) (e : EnvironmentId) :
    (s.sweep inUse retention now).1.holdings.count e +
        ((s.allSessions.filter fun session => !isKept inUse retention now session).map
          Session.environment).count e =
      s.holdings.count e := by
  have hsplit := List.countP_eq_countP_filter_add s.allSessions
    (fun session => session.environment == e) (isKept inUse retention now)
  simp only [count_holdings, allSessions_sweep, count_map_environment]
  omega

end Store
end CodeSessions
