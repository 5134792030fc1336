import CodeSessions.Proofs.Script.Names

/-!
# Definite assignment — programs that find all their names bound

- `DefinitelyAssigned p env`: each name in an expression of `p` is bound at the start, or is the
  target of an assignment before it,
- `contains_of_le`: a name once bound is bound in all states of a run that come later,
- `afterRuns env ps`: the bindings after runs of the programs `ps`, one after the other,
- `definite_assignment`.
-/

namespace CodeSessions
namespace Script

variable {env : Bindings} {p : Program}

/-- No statement needs a name that is neither bound at the start nor assigned by then. -/
def DefinitelyAssigned (p : Program) (env : Bindings) : Prop :=
  ∀ (k : Nat) (l : Located) (name : String), p[k]? = some l → l.Mentions (.name name) →
    env.contains name ∨ ∃ j < k, ∃ (earlier : Located) (e : Expr),
      p[j]? = some earlier ∧ earlier.statement = .assign name e

/-! ## Names stay bound -/

theorem contains_foldl {name : String} (h : env.contains name) (cs : List Completed) :
    (cs.foldl Completed.onBindings env).contains name := by
  rw [Table.contains] at h ⊢
  rw [get?_foldl, Option.isSome_or, h, Bool.or_true]

theorem contains_foldl_of_mem {name : String} {cs : List Completed} (h : name ∈ targets cs)
    (env : Bindings) : (cs.foldl Completed.onBindings env).contains name := by
  rw [Table.contains, get?_foldl_of_mem h]
  exact mem_targets_iff_isSome.1 h

theorem contains_run {name : String} (h : env.contains name) (p : Program) :
    ((run p env).bindings env).contains name := by
  rw [bindings_run]
  exact contains_foldl h _

theorem contains_of_le {name : String} {j k : Nat} (hle : j ≤ k)
    (h : ((run (p.take j) env).bindings env).contains name) :
    ((run (p.take k) env).bindings env).contains name := by
  rw [bindings_run, completed_take] at h ⊢
  obtain ⟨rest, hrest⟩ := List.take_prefix_take_left (l := completed env p) hle
  rw [← hrest, List.foldl_append]
  exact contains_foldl h rest

/-- The bindings after runs of the programs, one after the other and faults or not. -/
def afterRuns (env : Bindings) (ps : List Program) : Bindings :=
  ps.foldl (fun env p => (run p env).bindings env) env

theorem contains_afterRuns {name : String} (h : env.contains name) (ps : List Program) :
    (afterRuns env ps).contains name := by
  induction ps generalizing env with
  | nil => exact h
  | cons p ps ih => exact ih (contains_run h p)

/-- An assignment that is behind a position that is reached has bound its target. -/
theorem contains_of_assigned {k j : Nat} {earlier : Located} {name : String} {e : Expr}
    (hreached : (run (p.take k) env).fault = none) (hj : j < k) (hearlier : p[j]? = some earlier)
    (hassign : earlier.statement = .assign name e) :
    ((run (p.take k) env).bindings env).contains name := by
  have hearlier' : (p.take k)[j]? = some earlier := by rw [List.getElem?_take_of_lt hj, hearlier]
  have hlength : j < (completed env (p.take k)).length := by
    rw [fault_eq_none_iff.1 hreached]
    exact (List.getElem?_eq_some_iff.1 hearlier').1
  obtain ⟨l, hl, -, hevaluate⟩ :=
    getElem?_completed_eq_some_iff.1 (List.getElem?_eq_getElem hlength)
  cases hearlier'.symm.trans hl
  rw [hassign] at hevaluate
  obtain ⟨value, -, hc⟩ := ok_of_map_eq_ok hevaluate
  rw [bindings_run]
  exact contains_foldl_of_mem (mem_targets_iff.2 ⟨value, hc ▸ List.getElem_mem hlength⟩) env

/-! ## Faults of names -/

theorem FaultKind.eq_name_of_title {kind : FaultKind} {rest rest' : String}
    (h : "NameError" ++ rest = kind.title ++ rest') : kind = .name := by
  -- no other title begins with an N
  have hfirst := congrArg (fun s : String => s.toList.head?) h
  cases kind with
  | name => rfl
  | _ => simp [FaultKind.title] at hfirst

/-- A fault with a name is one of a name that is not bound where the run has come to. -/
theorem exists_faultsAt_unbound {rest : String}
    (h : (run p env).fault = some ("NameError" ++ rest)) :
    ∃ k l name, FaultsAt p env k l (.unbound name) ∧ l.Mentions (.name name) ∧
      ((run (p.take k) env).bindings env).contains name = false := by
  obtain ⟨k, l, f, hat⟩ := exists_faultsAt h
  have hreport : f.report l.line = "NameError" ++ rest := by
    rw [hat.run_eq] at h
    exact Option.some.inj h
  have hkind : f.kind = .name := by
    simp only [Fault.report, String.append_assoc] at hreport
    exact FaultKind.eq_name_of_title hreport.symm
  obtain ⟨e, he, hraised⟩ := hat.faults.exists_raised
  cases hraised with
  | operator hoperator =>
      rw [hkind] at hoperator
      cases hoperator
  | unbound hname hget =>
      refine ⟨k, l, _, hat, ⟨e, he, hname⟩, ?_⟩
      rw [Table.contains, hget, Option.isSome_none]

/-- A program that needs no name before it is bound never faults with a name.  Any fault with a name
is one of a name in the statement that faults, which is not bound there.  And what is bound at one
time is bound at all later times, also in later runs. -/
theorem definite_assignment (p : Program) (env : Bindings) :
    (DefinitelyAssigned p env → ∀ rest, (run p env).fault ≠ some ("NameError" ++ rest)) ∧
    (∀ rest, (run p env).fault = some ("NameError" ++ rest) →
      ∃ k l name, p[k]? = some l ∧ (run (p.take k) env).fault = none ∧
        (run [l] ((run (p.take k) env).bindings env)).fault = (run p env).fault ∧
        l.Mentions (.name name) ∧
        ((run (p.take k) env).bindings env).contains name = false ∧
        (run p env).fault = some ("NameError" ++ ": " ++ ("name '" ++ name ++ "' is not defined") ++
          " in <script> at line number " ++ toString l.line)) ∧
    ∀ name j, ((run (p.take j) env).bindings env).contains name →
      (∀ k, j ≤ k → ((run (p.take k) env).bindings env).contains name) ∧
      ∀ (later : List Program) (q : Program) k,
        let middle := afterRuns env (p :: later)
        ((run (q.take k) middle).bindings middle).contains name := by
  refine ⟨?_, ?_, ?_⟩
  · intro hassigned rest hfault
    obtain ⟨k, l, name, hat, hmentions, hunbound⟩ := exists_faultsAt_unbound hfault
    have hbound : ((run (p.take k) env).bindings env).contains name := by
      rcases hassigned k l name hat.located hmentions with hstart | ⟨j, hj, earlier, e, hp, hs⟩
      · exact contains_run hstart _
      · exact contains_of_assigned hat.reached hj hp hs
    rw [hbound] at hunbound
    cases hunbound
  · intro rest hfault
    obtain ⟨k, l, name, hat, hmentions, hunbound⟩ := exists_faultsAt_unbound hfault
    refine ⟨k, l, name, hat.located, hat.reached, ?_, hmentions, hunbound, ?_⟩
    · rw [hat.run_eq, run, runFrom_cons_of_error (Stmt.run_eq_error_iff.2 hat.faults)]
    · rw [hat.run_eq]
      rfl
  · intro name j hbound
    refine ⟨fun k hle => contains_of_le hle hbound, fun later q k => ?_⟩
    have hend : ((run p env).bindings env).contains name := by
      rcases Nat.le_total j p.length with hle | hle
      · simpa using contains_of_le hle hbound
      · simpa [List.take_of_length_le hle] using hbound
    exact contains_run (contains_afterRuns hend later) _

/-- A program that binds what it prints, and one that faults with its second item after an `or` has
passed over another name that is not bound. -/
theorem definite_assignment_or :
    let p : Program := [⟨1, .assign "x" (.name "y")⟩, ⟨2, .print [.name "x"] true⟩]
    let q : Program := [⟨1, .assign "x" (.literal (.int 1))⟩,
      ⟨2, .print [.binary .or (.name "x") (.name "w"), .name "z"] true⟩]
    let env := Table.empty.set "y" (.int 1)
    DefinitelyAssigned p env ∧ (∀ rest, (run p env).fault ≠ some ("NameError" ++ rest)) ∧
    (run q .empty).fault =
      some ("NameError" ++ ": name 'z' is not defined in <script> at line number 2") ∧
    (∃ k l name, q[k]? = some l ∧ l.Mentions (.name name) ∧
      ((run (q.take k) .empty).bindings .empty).contains name = false) ∧
    ((run (q.take 1) .empty).bindings .empty).contains "x" ∧
    ((run (q.take 2) .empty).bindings .empty).contains "x" ∧
    ((run (p.take 1) (afterRuns .empty [q])).bindings (afterRuns .empty [q])).contains "x" := by
  intro p q env
  have hassigned : DefinitelyAssigned p env := by
    rintro k l name hl ⟨root, hroot, hwithin⟩
    match k, hl with
    | 0, hl =>
        cases hl
        cases List.mem_singleton.1 hroot
        cases hwithin
        exact .inl rfl
    | 1, hl =>
        cases hl
        cases List.mem_singleton.1 hroot
        cases hwithin
        exact .inr ⟨0, by decide, _, _, rfl, rfl⟩
  have hfault : (run q .empty).fault =
      some ("NameError" ++ ": name 'z' is not defined in <script> at line number 2") := by
    simp only [q, run, runFrom, Stmt.run, renderItems, eval]
    rfl
  have hbound : ((run (q.take 1) .empty).bindings .empty).contains "x" := by
    simp only [q, List.take, run, runFrom, Stmt.run, eval]
    rfl
  obtain ⟨hnever, -, -⟩ := definite_assignment p env
  obtain ⟨-, hname, hlater⟩ := definite_assignment q .empty
  obtain ⟨k, l, name, hl, -, -, hmentions, hunbound, -⟩ := hname _ hfault
  obtain ⟨hrun, hruns⟩ := hlater "x" 1 hbound
  exact ⟨hassigned, hnever hassigned, hfault, ⟨k, l, name, hl, hmentions, hunbound⟩, hbound,
    hrun 2 (by decide), hruns [] p 1⟩

end Script
end CodeSessions
