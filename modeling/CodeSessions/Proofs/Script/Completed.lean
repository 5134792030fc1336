import CodeSessions.Proofs.Script.Faults

/-!
# Completed statements — what a run carries out

A statement is evaluated first, and what it then binds or writes is a matter of the values alone.

- `Completed`: a statement with the values of its expressions in their place,
- `Stmt.run_eq_map`: the effect of a statement is that of its values,
- `completed env p`: the statements that the run of `p` completes, which
  `getElem?_completed_eq_some_iff` says position by position,
- `effects_run`, `bindings_run`: a run has the effects of its completed statements,
- `completed_append`: of two programs, the second starts from the bindings that the first leaves.
-/

namespace CodeSessions
namespace Script

variable {env : Bindings} {spaced : Bool}

/-! ## Statements with values -/

/-- What a `print` shows, and whether it ends its output line. -/
structure Print where
  values : List Value
  newline : Bool

inductive Completed
  | assigned (target : String) (value : Value)
  | printed (print : Print)
  | evaluated (value : Value)

def Stmt.evaluate (env : Bindings) : Stmt → Except Fault Completed
  | .assign target value => (eval env value).map (.assigned target)
  | .print items newline => (items.mapM (eval env)).map fun values => .printed ⟨values, newline⟩
  | .expr value => (eval env value).map .evaluated

theorem Stmt.evaluate_cases {s : Stmt} {c : Completed} (h : s.evaluate env = .ok c) :
    (∃ target e value, s = .assign target e ∧ eval env e = .ok value ∧
      c = .assigned target value) ∨
    (∃ items newline values, s = .print items newline ∧ items.mapM (eval env) = .ok values ∧
      c = .printed ⟨values, newline⟩) ∨
    ∃ e value, s = .expr e ∧ eval env e = .ok value ∧ c = .evaluated value := by
  cases s with
  | assign target e =>
      obtain ⟨value, hvalue, rfl⟩ := ok_of_map_eq_ok h
      exact .inl ⟨target, e, value, rfl, hvalue, rfl⟩
  | print items newline =>
      obtain ⟨values, hvalues, rfl⟩ := ok_of_map_eq_ok h
      exact .inr (.inl ⟨items, newline, values, rfl, hvalues, rfl⟩)
  | expr e =>
      obtain ⟨value, hvalue, rfl⟩ := ok_of_map_eq_ok h
      exact .inr (.inr ⟨e, value, rfl, hvalue, rfl⟩)

/-! ## The effects of values -/

/-- The values of a `print`, each with a space before it unless it is the first on its line. -/
def row (spaced : Bool) : List Value → String
  | [] => ""
  | value :: values => (if spaced then " " else "") ++ value.display ++ row true values

namespace Print

def text (print : Print) (spaced : Bool) : String :=
  row spaced print.values ++ if print.newline then "\n" else ""

/-- Whether an output line with something on it is left behind. -/
def leavesOpen (print : Print) (spaced : Bool) : Bool :=
  !print.newline && (spaced || !print.values.isEmpty)

end Print

namespace Completed

def onBindings (env : Bindings) : Completed → Bindings
  | assigned target value => env.set target value
  | printed _ | evaluated _ => env

def effect? (spaced : Bool) : Completed → Option Effect
  | assigned target value => some (.bind target value)
  | printed print => some (.write (print.text spaced).toUTF8)
  | evaluated _ => none

def leavesOpen (spaced : Bool) : Completed → Bool
  | printed print => print.leavesOpen spaced
  | assigned _ _ | evaluated _ => spaced

theorem foldl_effect? (c : Completed) (spaced : Bool) (env : Bindings) :
    (c.effect? spaced).toList.foldl Effect.onBindings env = c.onBindings env := by
  cases c <;> rfl

end Completed

theorem renderItems_eq_map (items : List Expr) (text : String) (spaced : Bool) :
    renderItems env items text spaced =
      (items.mapM (eval env)).map fun values =>
        (text ++ row spaced values, spaced || !values.isEmpty) := by
  induction items generalizing text spaced with
  | nil => simp [renderItems, row, pure, Except.pure, Except.map]
  | cons item items ih =>
      rw [renderItems, List.mapM_cons]
      cases eval env item with
      | error f => rfl
      | ok value =>
          simp only [bind, Except.bind, ih]
          cases items.mapM (eval env) with
          | error f => rfl
          | ok values =>
              cases spaced <;> simp [Except.map, row, pure, Except.pure, String.append_assoc]

/-- A statement is evaluated, and then its values have their effect. -/
theorem Stmt.run_eq_map (s : Stmt) (spaced : Bool) :
    s.run env spaced =
      (s.evaluate env).map fun c => (c.effect? spaced, c.leavesOpen spaced) := by
  cases s with
  | assign target value =>
      rw [Stmt.run, Stmt.evaluate]
      cases eval env value <;> rfl
  | print items newline =>
      rw [Stmt.run, Stmt.evaluate, renderItems_eq_map]
      cases items.mapM (eval env) with
      | error f => rfl
      | ok values =>
          cases newline <;>
            simp [Except.map, bind, Except.bind, Completed.effect?, Completed.leavesOpen,
              Print.text, Print.leavesOpen]
  | expr value =>
      rw [Stmt.run, Stmt.evaluate]
      cases eval env value <;> rfl

theorem Stmt.run_of_error {s : Stmt} {f : Fault} (h : s.evaluate env = .error f) :
    s.run env spaced = .error f := by
  rw [Stmt.run_eq_map, h]
  rfl

theorem Stmt.run_of_ok {s : Stmt} {c : Completed} (h : s.evaluate env = .ok c) :
    s.run env spaced = .ok (c.effect? spaced, c.leavesOpen spaced) := by
  rw [Stmt.run_eq_map, h]
  rfl

/-! ## Completed statements -/

/-- The statements before the first that faults. -/
def completed (env : Bindings) : Program → List Completed
  | [] => []
  | l :: rest =>
      match l.statement.evaluate env with
      | .error _ => []
      | .ok c => c :: completed (c.onBindings env) rest

/-- The effects of statements in order, where `spaced` says whether the first of them finds an open
output line. -/
def effectsOf (spaced : Bool) : List Completed → List Effect
  | [] => []
  | c :: rest => (c.effect? spaced).toList ++ effectsOf (c.leavesOpen spaced) rest

theorem foldl_effectsOf (spaced : Bool) (cs : List Completed) (env : Bindings) :
    (effectsOf spaced cs).foldl Effect.onBindings env = cs.foldl Completed.onBindings env := by
  induction cs generalizing spaced env with
  | nil => rfl
  | cons c rest ih => rw [effectsOf, List.foldl_append, c.foldl_effect?, ih, List.foldl_cons]

section Cons

variable {l : Located} {f : Fault} {c : Completed}

theorem completed_cons_of_error (h : l.statement.evaluate env = .error f) (rest : Program) :
    completed env (l :: rest) = [] := by
  simp only [completed, h]

theorem completed_cons_of_ok (h : l.statement.evaluate env = .ok c) (rest : Program) :
    completed env (l :: rest) = c :: completed (c.onBindings env) rest := by
  simp only [completed, h]

theorem runFrom_cons_of_faults (h : l.statement.evaluate env = .error f) (rest : Program) :
    runFrom env spaced [] (l :: rest) = ⟨[], some (f.report l.line)⟩ :=
  runFrom_cons_of_error (Stmt.run_of_error h) rest

theorem runFrom_cons_of_completes (h : l.statement.evaluate env = .ok c) (rest : Program) :
    runFrom env spaced [] (l :: rest) =
      .followedBy ⟨(c.effect? spaced).toList, none⟩
        (runFrom (c.onBindings env) (c.leavesOpen spaced) [] rest) := by
  rw [runFrom_cons_of_ok (Stmt.run_of_ok h), Evaluation.bindings, c.foldl_effect?]

end Cons

theorem effects_runFrom (p : Program) (spaced : Bool) :
    (runFrom env spaced [] p).effects = effectsOf spaced (completed env p) := by
  fun_induction completed env p generalizing spaced with
  | case1 env => rfl
  | case2 env l rest f h =>
      rw [runFrom_cons_of_faults h]
      rfl
  | case3 env l rest c h ih =>
      rw [runFrom_cons_of_completes h, effectsOf, ← ih]
      rfl

theorem effects_run (p : Program) : (run p env).effects = effectsOf false (completed env p) :=
  effects_runFrom p false

theorem bindings_run (p : Program) (env : Bindings) :
    (run p env).bindings env = (completed env p).foldl Completed.onBindings env := by
  rw [Evaluation.bindings, effects_run, foldl_effectsOf]

/-- An open output line makes no statement fault. -/
theorem fault_runFrom (p : Program) (spaced : Bool) :
    (runFrom env spaced [] p).fault = (run p env).fault := by
  rw [run]
  generalize false = spaced'
  fun_induction completed env p generalizing spaced spaced' with
  | case1 env => rfl
  | case2 env l rest f h => rw [runFrom_cons_of_faults h, runFrom_cons_of_faults h]
  | case3 env l rest c h ih =>
      rw [runFrom_cons_of_completes h, runFrom_cons_of_completes h]
      exact ih _ _

theorem fault_run_cons {l : Located} {c : Completed} (h : l.statement.evaluate env = .ok c)
    (rest : Program) : (run (l :: rest) env).fault = (run rest (c.onBindings env)).fault := by
  rw [run, runFrom_cons_of_completes h]
  exact fault_runFrom rest _

/-! ## Parts of programs -/

theorem completed_take (p : Program) (k : Nat) :
    completed env (p.take k) = (completed env p).take k := by
  fun_induction completed env p generalizing k with
  | case1 env => simp [completed]
  | case2 env l rest f h =>
      cases k with
      | zero => rfl
      | succ k => rw [List.take_succ_cons, completed_cons_of_error h, List.take_nil]
  | case3 env l rest c h ih =>
      cases k with
      | zero => rfl
      | succ k => rw [List.take_succ_cons, completed_cons_of_ok h, ih, List.take_succ_cons]

/-- All statements are completed just where none faults. -/
theorem fault_eq_none_iff {p : Program} :
    (run p env).fault = none ↔ (completed env p).length = p.length := by
  fun_induction completed env p with
  | case1 env => simp [run, runFrom]
  | case2 env l rest f h =>
      rw [run, runFrom_cons_of_faults h]
      simp
  | case3 env l rest c h ih =>
      rw [fault_run_cons h, ih, List.length_cons, List.length_cons, Nat.add_right_cancel_iff]

/-- A program that does not fault can be gone on with. -/
theorem completed_append {p : Program} (h : (run p env).fault = none) (q : Program) :
    completed env (p ++ q) = completed env p ++ completed ((run p env).bindings env) q := by
  rw [bindings_run]
  fun_induction completed env p with
  | case1 env => rfl
  | case2 env l rest f hl =>
      rw [run, runFrom_cons_of_faults hl] at h
      cases h
  | case3 env l rest c hl ih =>
      rw [fault_run_cons hl] at h
      rw [List.cons_append, completed_cons_of_ok hl, ih h]
      rfl

theorem fault_append {p : Program} (h : (run p env).fault = none) (q : Program) :
    (run (p ++ q) env).fault = (run q ((run p env).bindings env)).fault := by
  obtain ⟨spaced, happend⟩ := exists_run_append h
  rw [happend]
  exact fault_runFrom q spaced

/-- What is completed at a position is the statement there, evaluated with the bindings that the
statements before it leave. -/
theorem getElem?_completed_eq_some_iff {p : Program} {k : Nat} {c : Completed} :
    (completed env p)[k]? = some c ↔
      ∃ l, p[k]? = some l ∧ (run (p.take k) env).fault = none ∧
        l.statement.evaluate ((run (p.take k) env).bindings env) = .ok c := by
  fun_induction completed env p generalizing k with
  | case1 env => simp
  | case2 env l rest f h =>
      refine iff_of_false nofun ?_
      rintro ⟨l', hl', hreached, hevaluate⟩
      cases k with
      | zero =>
          cases hl'
          cases h.symm.trans hevaluate
      | succ k =>
          rw [List.take_succ_cons, run, runFrom_cons_of_faults h] at hreached
          cases hreached
  | case3 env l rest first h ih =>
      cases k with
      | zero =>
          constructor
          · intro hc
            cases hc
            exact ⟨l, rfl, rfl, h⟩
          · rintro ⟨l', hl', -, hevaluate⟩
            cases hl'
            exact congrArg some (Except.ok.inj (h.symm.trans hevaluate))
      | succ k =>
          have hbindings : (run (l :: rest.take k) env).bindings env =
              (run (rest.take k) (first.onBindings env)).bindings (first.onBindings env) := by
            rw [bindings_run, bindings_run, completed_cons_of_ok h, List.foldl_cons]
          rw [List.getElem?_cons_succ, List.getElem?_cons_succ, List.take_succ_cons,
            fault_run_cons h, hbindings]
          exact ih

theorem mem_completed {p : Program} {c : Completed} (h : c ∈ completed env p) :
    ∃ l ∈ p, ∃ env', l.statement.evaluate env' = .ok c := by
  obtain ⟨k, hk⟩ := List.mem_iff_getElem?.1 h
  obtain ⟨l, hl, -, hevaluate⟩ := getElem?_completed_eq_some_iff.1 hk
  exact ⟨l, List.mem_of_getElem? hl, _, hevaluate⟩

end Script
end CodeSessions
