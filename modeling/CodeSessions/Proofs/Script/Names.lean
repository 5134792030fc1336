import CodeSessions.Proofs.Script.Completed

/-!
# Names — what a program reads of its environment, and what it changes

- `Agree env env' e`: the names in `e` have the same values, or none, in both environments,
- `eval_congr` and `run_congr`: an expression, and a program, depend on nothing else,
- `targets cs`: the names that completed assignments bind, and the only ones that change
  (`get?_foldl_of_not_mem`),
- `depends_on_own_names`.
-/

namespace CodeSessions
namespace Script

variable {env env' : Bindings}

/-! ## Names that are read -/

def Agree (env env' : Bindings) (e : Expr) : Prop :=
  ∀ name, Expr.Within (.name name) e → env.get? name = env'.get? name

theorem Agree.within {e root : Expr} (h : Agree env env' root) (hwithin : e.Within root) :
    Agree env env' e :=
  fun name hname => h name (hname.trans hwithin)

theorem Agree.onBindings {e : Expr} (h : Agree env env' e) (c : Completed) :
    Agree (c.onBindings env) (c.onBindings env') e := by
  intro name hname
  cases c with
  | assigned target value => simp only [Completed.onBindings, Table.get?_set, h name hname]
  | printed print => exact h name hname
  | evaluated value => exact h name hname

mutual

theorem eval_congr : ∀ {e : Expr}, Agree env env' e → eval env e = eval env' e
  | .literal value, _ => by simp only [eval]
  | .name name, h => by simp only [eval, h name .self]
  | .unary op operand, h => by
      have hoperand := eval_congr (h.within (.operand .self))
      simp only [eval, hoperand]
  | .binary op left right, h => by
      have hleft := eval_congr (h.within (.left .self))
      have hright := eval_congr (h.within (.right .self))
      cases op <;> simp only [eval, hleft, hright]
  | .chain first links, h => by
      have hfirst := eval_congr (h.within (.first .self))
      have hlinks := fun left => evalLinks_congr (fun _ hmem => h.within (.link hmem .self)) left
      simp only [eval, hfirst, hlinks]

theorem evalLinks_congr : ∀ {links : List (BinaryOp × Expr)},
    (∀ link ∈ links, Agree env env' link.2) → ∀ left : Value,
    evalLinks env left links = evalLinks env' left links
  | [], _, left => by simp only [evalLinks]
  | (op, right) :: links, h, left => by
      obtain ⟨hhead, htail⟩ := List.forall_mem_cons.1 h
      have hright := eval_congr hhead
      have hlinks := evalLinks_congr htail
      simp only [evalLinks, hright, hlinks]

end

theorem mapM_eval_congr {items : List Expr} (h : ∀ e ∈ items, Agree env env' e) :
    items.mapM (eval env) = items.mapM (eval env') := by
  induction items with
  | nil => rfl
  | cons item items ih =>
      obtain ⟨hitem, hitems⟩ := List.forall_mem_cons.1 h
      rw [List.mapM_cons, List.mapM_cons, eval_congr hitem, ih hitems]

theorem Stmt.evaluate_congr {s : Stmt} (h : ∀ e ∈ s.exprs, Agree env env' e) :
    s.evaluate env = s.evaluate env' := by
  cases s with
  | assign target value => rw [evaluate, evaluate, eval_congr (h value List.mem_cons_self)]
  | print items newline =>
      have hitems : ∀ e ∈ items, Agree env env' e := h
      rw [evaluate, evaluate, mapM_eval_congr hitems]
  | expr value => rw [evaluate, evaluate, eval_congr (h value List.mem_cons_self)]

theorem run_congr {p : Program} (h : ∀ l ∈ p, ∀ e ∈ l.statement.exprs, Agree env env' e) :
    (∀ spaced, runFrom env spaced [] p = runFrom env' spaced [] p) ∧
      completed env p = completed env' p := by
  fun_induction completed env p generalizing env' with
  | case1 env => exact ⟨fun _ => rfl, rfl⟩
  | case2 env l rest f hl =>
      have hl' : l.statement.evaluate env' = .error f :=
        (Stmt.evaluate_congr (h l List.mem_cons_self)).symm.trans hl
      refine ⟨fun spaced => ?_, ?_⟩
      · rw [runFrom_cons_of_faults hl, runFrom_cons_of_faults hl']
      · rw [completed_cons_of_error hl']
  | case3 env l rest c hl ih =>
      have hl' : l.statement.evaluate env' = .ok c :=
        (Stmt.evaluate_congr (h l List.mem_cons_self)).symm.trans hl
      -- a value that is assigned is the same in both environments
      obtain ⟨hrun, hcompleted⟩ :=
        ih fun l' hmem e he => (h l' (List.mem_cons_of_mem l hmem) e he).onBindings c
      refine ⟨fun spaced => ?_, ?_⟩
      · rw [runFrom_cons_of_completes hl, runFrom_cons_of_completes hl', hrun]
      · rw [completed_cons_of_ok hl', hcompleted]

/-! ## Names that are bound -/

def targets (cs : List Completed) : List String :=
  cs.filterMap fun
    | .assigned target _ => some target
    | .printed _ | .evaluated _ => none

theorem mem_targets_iff {name : String} {cs : List Completed} :
    name ∈ targets cs ↔ ∃ value, .assigned name value ∈ cs := by
  rw [targets, List.mem_filterMap]
  constructor
  · rintro ⟨c, hc, htarget⟩
    cases c with
    | assigned target value =>
        cases htarget
        exact ⟨value, hc⟩
    | printed print => cases htarget
    | evaluated value => cases htarget
  · rintro ⟨value, hc⟩
    exact ⟨_, hc, rfl⟩

/-- The values that completed statements give to names stand before those of the environment. -/
theorem get?_foldl (cs : List Completed) (env : Bindings) (name : String) :
    (cs.foldl Completed.onBindings env).get? name =
      ((cs.foldl Completed.onBindings .empty).get? name).or (env.get? name) := by
  induction cs using List.reverseRecOn with
  | nil => simp
  | append_singleton cs c ih =>
      rw [List.foldl_append, List.foldl_append]
      cases c with
      | assigned target value =>
          by_cases htarget : target = name
          · simp [Completed.onBindings, htarget]
          · simpa [Completed.onBindings, htarget] using ih
      | printed print => exact ih
      | evaluated value => exact ih

theorem mem_targets_iff_isSome {cs : List Completed} {name : String} :
    name ∈ targets cs ↔ ((cs.foldl Completed.onBindings .empty).get? name).isSome := by
  induction cs using List.reverseRecOn with
  | nil => simp [targets]
  | append_singleton cs c ih =>
      rw [List.foldl_append, targets, List.filterMap_append, List.mem_append]
      cases c with
      | assigned target value =>
          by_cases htarget : target = name
          · simp [Completed.onBindings, htarget]
          · simpa [Completed.onBindings, htarget, Ne.symm htarget, targets] using ih
      | printed print => simpa [Completed.onBindings, targets] using ih
      | evaluated value => simpa [Completed.onBindings, targets] using ih

theorem get?_foldl_of_not_mem {cs : List Completed} {name : String} (h : name ∉ targets cs)
    (env : Bindings) : (cs.foldl Completed.onBindings env).get? name = env.get? name := by
  rw [mem_targets_iff_isSome, Option.not_isSome_iff_eq_none] at h
  rw [get?_foldl, h, Option.none_or]

theorem get?_foldl_of_mem {cs : List Completed} {name : String} (h : name ∈ targets cs)
    (env : Bindings) :
    (cs.foldl Completed.onBindings env).get? name =
      (cs.foldl Completed.onBindings .empty).get? name := by
  obtain ⟨value, hvalue⟩ := Option.isSome_iff_exists.1 (mem_targets_iff_isSome.1 h)
  rw [get?_foldl, hvalue, Option.some_or]

theorem foldl_of_targets_eq_nil {cs : List Completed} (h : targets cs = []) (env : Bindings) :
    cs.foldl Completed.onBindings env = env := by
  induction cs with
  | nil => rfl
  | cons c rest ih =>
      cases c with
      | assigned target value => cases h
      | printed print => exact ih h
      | evaluated value => exact ih h

/-- Two environments that agree on the names in the expressions of a program make no difference to
its run: the effects, and so the output, are the same, and so is the fault.  The names that
completed assignments bind end with the same values, and all others keep what they had.  A program
without assignments leaves its environment as it is, and running it again does the same. -/
theorem depends_on_own_names {p : Program} {env env' : Bindings}
    (hagree : ∀ l ∈ p, ∀ name, l.Mentions (.name name) → env.get? name = env'.get? name) :
    run p env' = run p env ∧ completed env' p = completed env p ∧
    (∀ name, name ∉ targets (completed env p) →
      ((run p env).bindings env).get? name = env.get? name ∧
      ((run p env').bindings env').get? name = env'.get? name) ∧
    (∀ name, name ∈ targets (completed env p) →
      ((run p env').bindings env').get? name = ((run p env).bindings env).get? name) ∧
    ((∀ l ∈ p, ∀ target e, l.statement ≠ .assign target e) →
      (run p env).bindings env = env ∧ run p ((run p env).bindings env) = run p env) := by
  have hexprs : ∀ l ∈ p, ∀ e ∈ l.statement.exprs, Agree env env' e :=
    fun l hl e he name hname => hagree l hl name ⟨e, he, hname⟩
  obtain ⟨hrun, hcompleted⟩ := run_congr hexprs
  refine ⟨(hrun false).symm, hcompleted.symm, fun name hname => ?_, fun name hname => ?_, ?_⟩
  · rw [bindings_run, bindings_run, ← hcompleted]
    exact ⟨get?_foldl_of_not_mem hname env, get?_foldl_of_not_mem hname env'⟩
  · rw [bindings_run, bindings_run, ← hcompleted, get?_foldl_of_mem hname env,
      get?_foldl_of_mem hname env']
  · intro hnone
    have htargets : targets (completed env p) = [] := by
      rw [List.eq_nil_iff_forall_not_mem]
      intro name hname
      obtain ⟨value, hvalue⟩ := mem_targets_iff.1 hname
      obtain ⟨l, hl, middle, hevaluate⟩ := mem_completed hvalue
      obtain ⟨target, e, -, hs, -, -⟩ | ⟨_, _, _, -, -, h⟩ | ⟨_, _, -, -, h⟩ :=
        Stmt.evaluate_cases hevaluate
      · exact hnone l hl target e hs
      · cases h
      · cases h
    have hbindings : (run p env).bindings env = env := by
      rw [bindings_run, foldl_of_targets_eq_nil htargets]
    exact ⟨hbindings, by rw [hbindings]⟩

/-- Environments that differ in a name which the program does not read, and does not come to bind
before it faults. -/
theorem depends_on_own_names_fault :
    let p : Program := [⟨1, .assign "y" (.unary .negate (.name "x"))⟩, ⟨2, .print [.name "y"] true⟩,
      ⟨3, .assign "w" (.name "z")⟩]
    let q : Program := [⟨1, .print [.name "x"] true⟩]
    let env := (Table.empty.set "x" (.int 1)).set "w" (.int 5)
    let env' := (Table.empty.set "w" (.int 7)).set "x" (.int 1)
    (∀ l ∈ p, ∀ name, l.Mentions (.name name) → env.get? name = env'.get? name) ∧
    run p env' = run p env ∧
    (run p env).fault = some "NameError: name 'z' is not defined in <script> at line number 3" ∧
    ((run p env).bindings env).get? "w" = some (.int 5) ∧
    ((run p env').bindings env').get? "w" = some (.int 7) ∧
    ((run p env).bindings env).get? "y" = some (.int (-1)) ∧
    ((run p env').bindings env').get? "y" = some (.int (-1)) ∧
    (∀ l ∈ q, ∀ target e, l.statement ≠ .assign target e) ∧
    (run q env).bindings env = env ∧ run q ((run q env).bindings env) = run q env := by
  intro p q env env'
  have hagree : ∀ l ∈ p, ∀ name, l.Mentions (.name name) → env.get? name = env'.get? name := by
    rintro l hl name ⟨root, hroot, hwithin⟩
    simp only [p, List.mem_cons, List.not_mem_nil, or_false] at hl
    rcases hl with rfl | rfl | rfl
    · cases List.mem_singleton.1 hroot
      cases hwithin with
      | operand h =>
          cases h
          rfl
    · cases List.mem_singleton.1 hroot
      cases hwithin
      rfl
    · cases List.mem_singleton.1 hroot
      cases hwithin
      rfl
  have hrun : run p env = ⟨[.bind "y" (.int (-1)), .write "-1\n".toUTF8],
      some "NameError: name 'z' is not defined in <script> at line number 3"⟩ := by
    simp only [p, run, runFrom, Stmt.run, renderItems, eval]
    rfl
  have htargets : targets (completed env p) = ["y"] := by
    simp only [p, completed, Stmt.evaluate, List.mapM_cons, eval]
    rfl
  have hy : ((run p env).bindings env).get? "y" = some (.int (-1)) := by
    rw [hrun]
    rfl
  have hnone : ∀ l ∈ q, ∀ target e, l.statement ≠ .assign target e := by simp [q]
  obtain ⟨hsame, -, hkept, hbound, -⟩ := depends_on_own_names hagree
  obtain ⟨hw, hw'⟩ := hkept "w" (by simp [htargets])
  obtain ⟨-, -, -, -, hreplay⟩ := @depends_on_own_names q env env fun _ _ _ _ => rfl
  have hy' := (hbound "y" (by simp [htargets])).trans hy
  exact ⟨hagree, hsame, by rw [hrun], hw, hw', hy, hy', hnone, hreplay hnone⟩

end Script
end CodeSessions
