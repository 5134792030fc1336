import CodeSessions.Proofs.Script.Literals
import CodeSessions.Proofs.Script.Operators

/-!
# Faults — what a run that faults leaves behind

A run ends with the first statement that faults, and leaves what the statements before it have done.

- `Raised env e f`: the fault `f` comes from an operator, or from a name in `e` that is not bound,
- `FirstFault env f es`: of the expressions `es`, evaluated in order, the first that faults has the
  fault `f`,
- `Stmt.run_eq_error_iff`: a statement faults just as its expressions do, and has no effect then,
- `exists_run_append`: a run goes on from what its first part leaves, unless that faults,
- `FaultsAt p env k l f`: the position at which a run ends,
- `fault_leaves_prefix`.
-/

namespace CodeSessions

namespace Evaluation

/-- An evaluation that goes on with `next`. -/
def followedBy (e next : Evaluation) : Evaluation :=
  ⟨e.effects ++ next.effects, next.fault⟩

theorem followedBy_assoc (e₁ e₂ e₃ : Evaluation) :
    (e₁.followedBy e₂).followedBy e₃ = e₁.followedBy (e₂.followedBy e₃) := by
  simp [followedBy]

theorem bindings_followedBy (e next : Evaluation) (env : Bindings) :
    (e.followedBy next).bindings env = next.bindings (e.bindings env) := by
  simp [followedBy, bindings]

end Evaluation

namespace Script

variable {env : Bindings}

/-! ## Faults of expressions -/

/-- What the faults of an expression come from: its operators, and its names that are bound to
nothing. -/
inductive Raised (env : Bindings) (root : Expr) : Fault → Prop
  | operator {f : Fault} : f.kind.ofOperator = true → Raised env root f
  | unbound {name : String} :
      Expr.Within (.name name) root → env.get? name = none → Raised env root (.unbound name)

namespace Raised

variable {f : Fault} {root : Expr}

theorem within {e : Expr} (h : Raised env e f) (hwithin : e.Within root) : Raised env root f := by
  cases h with
  | operator hkind => exact .operator hkind
  | unbound hname hget => exact .unbound (hname.trans hwithin) hget

theorem kind_ne (h : Raised env root f) : f.kind ≠ .syntactic := by
  cases h with
  | operator hkind =>
      intro hf
      rw [hf] at hkind
      cases hkind
  | unbound _ _ => nofun

end Raised

mutual

theorem eval_fault {f : Fault} : ∀ {e : Expr}, eval env e = .error f → Raised env e f
  | .literal value, h => by
      simp only [eval] at h
      cases h
  | .name name, h => by
      simp only [eval] at h
      split at h
      · cases h
      · rename_i hget
        cases h
        exact .unbound .self hget
  | .unary op operand, h => by
      simp only [eval] at h
      rcases error_of_bind_eq_error h with h | ⟨a, _, h⟩
      · exact (eval_fault h).within (.operand .self)
      · exact .operator ((admissible_applyUnary _ _).ofOperator h)
  | .binary op left right, h => by
      have hleft : ∀ {f}, eval env left = .error f → Raised env (.binary op left right) f :=
        fun h => (eval_fault h).within (.left .self)
      have hright : ∀ {f}, eval env right = .error f → Raised env (.binary op left right) f :=
        fun h => (eval_fault h).within (.right .self)
      by_cases hand : op = .and
      · subst hand
        simp only [eval] at h
        rcases error_of_bind_eq_error h with h | ⟨a, _, h⟩
        · exact hleft h
        · split at h
          · exact hright h
          · cases h
      · by_cases hor : op = .or
        · subst hor
          simp only [eval] at h
          rcases error_of_bind_eq_error h with h | ⟨a, _, h⟩
          · exact hleft h
          · split at h
            · cases h
            · exact hright h
        · rw [eval_binary env hand hor] at h
          rcases error_of_bind_eq_error h with h | ⟨a, _, h⟩
          · exact hleft h
          · rcases error_of_bind_eq_error h with h | ⟨b, _, h⟩
            · exact hright h
            · exact .operator ((admissible_applyBinary _ _ _).ofOperator h)
  | .chain first links, h => by
      simp only [eval] at h
      rcases error_of_bind_eq_error h with h | ⟨a, _, h⟩
      · exact (eval_fault h).within (.first .self)
      · exact evalLinks_fault (fun _ hmem => .link hmem .self) h

theorem evalLinks_fault {f : Fault} {root : Expr} : ∀ {links : List (BinaryOp × Expr)}
    {left : Value}, (∀ link ∈ links, link.2.Within root) → evalLinks env left links = .error f →
    Raised env root f
  | [], left, _, h => by
      simp only [evalLinks] at h
      cases h
  | (op, right) :: links, left, hwithin, h => by
      obtain ⟨hright, hlinks⟩ := List.forall_mem_cons.1 hwithin
      simp only [evalLinks] at h
      rcases error_of_bind_eq_error h with h | ⟨b, _, h⟩
      · exact (eval_fault h).within hright
      · rcases error_of_bind_eq_error h with h | ⟨holds, _, h⟩
        · exact .operator ((admissible_applyBinary _ _ _).ofOperator h)
        · split at h
          · exact evalLinks_fault hlinks h
          · cases h

end

/-- The first of the expressions that faults, after values of those before it, has the fault `f`. -/
inductive FirstFault (env : Bindings) (f : Fault) : List Expr → Prop
  | here {e : Expr} {rest : List Expr} : eval env e = .error f → FirstFault env f (e :: rest)
  | later {e : Expr} {rest : List Expr} {v : Value} :
      eval env e = .ok v → FirstFault env f rest → FirstFault env f (e :: rest)

theorem FirstFault.exists_raised {f : Fault} {es : List Expr} (h : FirstFault env f es) :
    ∃ e ∈ es, Raised env e f := by
  induction h with
  | here he => exact ⟨_, List.mem_cons_self, eval_fault he⟩
  | later _ _ ih =>
      obtain ⟨e, he, hraised⟩ := ih
      exact ⟨e, List.mem_cons_of_mem _ he, hraised⟩

theorem FirstFault.kind_ne {f : Fault} {es : List Expr} (h : FirstFault env f es) :
    f.kind ≠ .syntactic := by
  obtain ⟨e, -, hraised⟩ := h.exists_raised
  exact hraised.kind_ne

theorem firstFault_singleton {f : Fault} {e : Expr} :
    FirstFault env f [e] ↔ eval env e = .error f := by
  constructor
  · rintro (he | ⟨_, h⟩)
    · exact he
    · cases h
  · exact .here

/-! ## Faults of statements -/

theorem renderItems_eq_error_iff {f : Fault} {items : List Expr} {text : String} {spaced : Bool} :
    renderItems env items text spaced = .error f ↔ FirstFault env f items := by
  induction items generalizing text spaced with
  | nil => exact iff_of_false nofun nofun
  | cons item items ih =>
      cases hitem : eval env item with
      | error f' =>
          simp only [renderItems, hitem]
          constructor
          · intro h
            cases h
            exact .here hitem
          · rintro (he | ⟨he, _⟩)
            · cases hitem.symm.trans he
              rfl
            · cases hitem.symm.trans he
      | ok v =>
          simp only [renderItems, hitem]
          refine ih.trans ⟨.later hitem, ?_⟩
          rintro (he | ⟨_, h⟩)
          · cases hitem.symm.trans he
          · exact h

/-- A statement faults just as its expressions do, wherever on an output line it is reached. -/
theorem Stmt.run_eq_error_iff {s : Stmt} {spaced : Bool} {f : Fault} :
    s.run env spaced = .error f ↔ FirstFault env f s.exprs := by
  cases s with
  | assign target value =>
      rw [Stmt.run, Stmt.exprs, firstFault_singleton]
      refine bind_eq_error_iff fun v f' h => ?_
      cases h
  | print items newline =>
      rw [Stmt.run, Stmt.exprs, bind_eq_error_iff fun rendered f' => ?_]
      · exact renderItems_eq_error_iff
      · intro h
        cases newline <;> cases h
  | expr value =>
      rw [Stmt.run, Stmt.exprs, firstFault_singleton]
      refine bind_eq_error_iff fun v f' h => ?_
      cases h

/-! ## Faults of runs -/

/-- The effects so far are put in front of those to come. -/
theorem runFrom_eq_followedBy (spaced : Bool) (done : List Effect) (p : Program) :
    runFrom env spaced done p = .followedBy ⟨done.reverse, none⟩ (runFrom env spaced [] p) := by
  induction p generalizing env spaced done with
  | nil => simp [runFrom, Evaluation.followedBy]
  | cons l rest ih =>
      simp only [runFrom]
      cases l.statement.run env spaced with
      | error f => simp [Evaluation.followedBy]
      | ok r =>
          obtain ⟨effect?, spaced'⟩ := r
          cases effect? with
          | none => exact ih spaced' done
          | some effect =>
              simp only [ih spaced' (effect :: done), ih spaced' [effect],
                ← Evaluation.followedBy_assoc]
              simp [Evaluation.followedBy]

theorem runFrom_cons_of_error {l : Located} {spaced : Bool} {f : Fault}
    (h : l.statement.run env spaced = .error f) (rest : Program) :
    runFrom env spaced [] (l :: rest) = ⟨[], some (f.report l.line)⟩ := by
  simp [runFrom, h]

theorem runFrom_cons_of_ok {l : Located} {spaced spaced' : Bool} {effect? : Option Effect}
    (h : l.statement.run env spaced = .ok (effect?, spaced')) (rest : Program) :
    let first : Evaluation := ⟨effect?.toList, none⟩
    runFrom env spaced [] (l :: rest) =
      first.followedBy (runFrom (first.bindings env) spaced' [] rest) := by
  cases effect? with
  | none => simp [runFrom, h, Evaluation.followedBy, Evaluation.bindings]
  | some effect =>
      simp only [runFrom, h]
      exact runFrom_eq_followedBy spaced' [effect] rest

/-- A program that does not fault can be gone on with. -/
theorem exists_runFrom_append {p : Program} {spaced : Bool}
    (h : (runFrom env spaced [] p).fault = none) :
    ∃ spaced', ∀ q, runFrom env spaced [] (p ++ q) =
      (runFrom env spaced [] p).followedBy
        (runFrom ((runFrom env spaced [] p).bindings env) spaced' [] q) := by
  induction p generalizing env spaced with
  | nil => exact ⟨spaced, fun q => rfl⟩
  | cons l rest ih =>
      cases hrun : l.statement.run env spaced with
      | error f =>
          rw [runFrom_cons_of_error hrun] at h
          cases h
      | ok r =>
          rw [runFrom_cons_of_ok hrun] at h
          obtain ⟨spaced', hrest⟩ := ih h
          refine ⟨spaced', fun q => ?_⟩
          rw [List.cons_append, runFrom_cons_of_ok hrun, runFrom_cons_of_ok hrun, hrest,
            Evaluation.followedBy_assoc, Evaluation.bindings_followedBy]

theorem exists_run_append {p : Program} (h : (run p env).fault = none) :
    ∃ spaced, ∀ q, run (p ++ q) env =
      (run p env).followedBy (runFrom ((run p env).bindings env) spaced [] q) :=
  exists_runFrom_append h

/-! ## The position of a fault -/

/-- The run of `p` reaches the statement `l` at position `k`, which has the fault `f`. -/
structure FaultsAt (p : Program) (env : Bindings) (k : Nat) (l : Located) (f : Fault) : Prop where
  located : p[k]? = some l
  reached : (run (p.take k) env).fault = none
  faults : FirstFault ((run (p.take k) env).bindings env) f l.statement.exprs

namespace FaultsAt

variable {p : Program} {k : Nat} {l : Located} {f : Fault}

theorem run_take_append (h : FaultsAt p env k l f) (rest : Program) :
    run (p.take (k + 1) ++ rest) env = ⟨(run (p.take k) env).effects, some (f.report l.line)⟩ := by
  have htake : p.take (k + 1) ++ rest = p.take k ++ l :: rest := by
    rw [List.take_add_one, h.located]
    simp
  obtain ⟨spaced, happend⟩ := exists_run_append h.reached
  rw [htake, happend, runFrom_cons_of_error (Stmt.run_eq_error_iff.2 h.faults)]
  simp [Evaluation.followedBy]

theorem run_eq (h : FaultsAt p env k l f) :
    run p env = ⟨(run (p.take k) env).effects, some (f.report l.line)⟩ := by
  simpa using h.run_take_append (p.drop (k + 1))

/-- No position behind it is reached. -/
theorem le_of_reached (h : FaultsAt p env k l f) {j : Nat}
    (hj : (run (p.take j) env).fault = none) : j ≤ k := by
  by_contra hlt
  have htake := List.take_append_drop (k + 1) (p.take j)
  rw [List.take_take, min_eq_left (by omega)] at htake
  rw [← htake, h.run_take_append] at hj
  cases hj

end FaultsAt

theorem exists_faultsAt {p : Program} {message : String} (h : (run p env).fault = some message) :
    ∃ k l f, FaultsAt p env k l f := by
  induction p using List.reverseRecOn generalizing message with
  | nil => cases h
  | append_singleton p l ih =>
      cases hp : (run p env).fault with
      | some message' =>
          obtain ⟨k, l', f, hat⟩ := ih hp
          have hk : k < p.length := (List.getElem?_eq_some_iff.1 hat.located).1
          have htake : (p ++ [l]).take k = p.take k := List.take_append_of_le_length hk.le
          refine ⟨k, l', f, ?_, htake ▸ hat.reached, htake ▸ hat.faults⟩
          rw [List.getElem?_append_left hk, hat.located]
      | none =>
          -- the last statement is reached, and so it is the one that faults
          obtain ⟨spaced, happend⟩ := exists_run_append hp
          rw [happend] at h
          cases hrun : l.statement.run ((run p env).bindings env) spaced with
          | error f =>
              have hfaults := Stmt.run_eq_error_iff.1 hrun
              exact ⟨p.length, l, f, by simp, by simpa using hp, by simpa using hfaults⟩
          | ok r =>
              rw [runFrom_cons_of_ok hrun] at h
              cases h

/-! ## Sources that cannot be read -/

theorem LinesDerive.readable {n : Nat} {lines : List (List Char)} {p : Program}
    (h : LinesDerive n lines p) : ∀ line ∈ lines, ∃ ss, readLine line = .ok ss := by
  induction h with
  | nil => simp
  | @cons n line lines ts ss depth count p hts hss hdepth hcount _ ih =>
      have hline := readLine_eq_ok_iff.2 ⟨ts, depth, count, hts, hss, hdepth, hcount⟩
      exact List.forall_mem_cons.2 ⟨⟨ss, hline⟩, ih⟩

/-- The first line that cannot be read is reported, and nothing is done of the lines before it. -/
theorem exists_programFrom_eq_error {lines : List (List Char)} {line : List Char}
    {complaint : Complaint} (hmem : line ∈ lines) (hline : readLine line = .error complaint)
    (done : Program) (n : Nat) :
    ∃ before bad after reported, lines = before ++ bad :: after ∧
      (∀ good ∈ before, ∃ ss, readLine good = .ok ss) ∧ readLine bad = .error reported ∧
      programFrom done n lines = .error ⟨n + before.length, reported⟩ := by
  cases hread : programFrom done n lines with
  | error fault =>
      obtain ⟨before, bad, after, hlines, hnumber, hgood, hbad⟩ := programFrom_eq_error_iff.1 hread
      exact ⟨before, bad, after, fault.complaint, hlines, hgood, hbad, by rw [← hnumber]⟩
  | ok p =>
      obtain ⟨q, -, hq⟩ := programFrom_eq_ok_iff.1 hread
      obtain ⟨ss, hss⟩ := hq.readable line hmem
      cases hss.symm.trans hline

theorem FaultKind.title_mem {kind : FaultKind} (h : kind ≠ .syntactic) :
    kind.title ∈
      ["NameError", "TypeError", "ZeroDivisionError", "OverflowError", "MemoryError"] := by
  cases kind with
  | syntactic => exact absurd rfl h
  | _ => decide

/-- A run that faults has come to one statement and leaves the environment and the output as the
statements before it did.  That statement has a fault of its own, which is reported with its line,
and no effect; nor has anything after it.  Of a source with a bad line nothing is run. -/
theorem fault_leaves_prefix (env : Bindings) (output : Transcript) :
    (∀ p message, (run p env).fault = some message →
      ∃! k, ∃ l f, p[k]? = some l ∧
        let before := run (p.take k) env
        before.fault = none ∧
        (run p env).bindings env = before.bindings env ∧
        (run p env).effects.foldl Effect.onTranscript output =
          before.effects.foldl Effect.onTranscript output ∧
        (∀ spaced, l.statement.run (before.bindings env) spaced = .error f) ∧
        run [l] (before.bindings env) = ⟨[], some message⟩ ∧
        message = f.kind.title ++ ": " ++ f.detail ++ " in <script> at line number " ++
          toString l.line ∧
        f.kind.title ∈
          ["NameError", "TypeError", "ZeroDivisionError", "OverflowError", "MemoryError"] ∧
        ∀ rest, run (p.take (k + 1) ++ rest) env = run p env) ∧
    ∀ (source : String) lines line complaint, SplitsLines source.toList lines → line ∈ lines →
      readLine line = .error complaint →
      (interpreter source env).bindings env = env ∧
      (interpreter source env).effects.foldl Effect.onTranscript output = output ∧
      ∃ before bad after reported, lines = before ++ bad :: after ∧
        (∀ good ∈ before, ∃ ss, readLine good = .ok ss) ∧ readLine bad = .error reported ∧
        (interpreter source env).fault = some ("SyntaxError: " ++ reported.message ++
          " in <script> at line number " ++ toString (before.length + 1)) := by
  constructor
  · intro p message h
    obtain ⟨k, l, f, hat⟩ := exists_faultsAt h
    have hmessage : f.report l.line = message := by
      rw [hat.run_eq] at h
      exact Option.some.inj h
    have hfaults : ∀ spaced,
        l.statement.run ((run (p.take k) env).bindings env) spaced = .error f :=
      fun spaced => Stmt.run_eq_error_iff.2 hat.faults
    refine ⟨k, ⟨l, f, hat.located, hat.reached, ?_, ?_, hfaults, ?_, hmessage.symm, ?_, ?_⟩, ?_⟩
    · rw [hat.run_eq]
      rfl
    · rw [hat.run_eq]
    · rw [run, runFrom_cons_of_error (hfaults false), hmessage]
    · exact FaultKind.title_mem hat.faults.kind_ne
    · intro rest
      rw [hat.run_take_append, ← hat.run_eq]
    · rintro k' ⟨l', f', hl', hreached', -, -, hfaults', -⟩
      have hat' : FaultsAt p env k' l' f' :=
        ⟨hl', hreached', Stmt.run_eq_error_iff.1 (hfaults' false)⟩
      exact le_antisymm (hat.le_of_reached hreached') (hat'.le_of_reached hat.reached)
  · intro source lines line complaint hlines hmem hline
    obtain ⟨before, bad, after, reported, rfl, hgood, hbad, hprogram⟩ :=
      exists_programFrom_eq_error hmem hline [] 1
    have hsource : programOfSource source.toList = .error ⟨1 + before.length, reported⟩ := by
      rw [programOfSource, hlines.eq_lines, hprogram]
    have hinterpreter : interpreter source env =
        ⟨[], some ((Fault.unreadable reported).report (before.length + 1))⟩ := by
      simp only [interpreter, hsource, Nat.add_comm 1]
    rw [hinterpreter]
    exact ⟨rfl, rfl, before, bad, after, reported, rfl, hgood, hbad, rfl⟩

/-- A `print` that faults on its second item, and a source whose second line cannot be read. -/
theorem fault_leaves_prefix_print :
    let p : Program := [⟨1, .assign "a" (.literal (.int 1))⟩,
      ⟨2, .print [.name "a", .name "b"] true⟩, ⟨3, .assign "a" (.literal (.int 2))⟩]
    let message := "NameError: name 'b' is not defined in <script> at line number 2"
    (run p .empty).fault = some message ∧
    (∃ k l, p[k]? = some l ∧
      run [l] ((run (p.take k) .empty).bindings .empty) = ⟨[], some message⟩ ∧
      (run p .empty).effects.foldl Effect.onTranscript .empty =
        (run (p.take k) .empty).effects.foldl Effect.onTranscript .empty) ∧
    SplitsLines "a = 1\nprint (".toList ["a = 1".toList, "print (".toList] ∧
    readLine "print (".toList = .error .invalid ∧
    (interpreter "a = 1\nprint (" .empty).bindings .empty = .empty := by
  intro p message
  have hfault : (run p .empty).fault = some message := by
    simp only [p, run, runFrom, Stmt.run, renderItems, eval]
    rfl
  have hlines : SplitsLines "a = 1\nprint (".toList ["a = 1".toList, "print (".toList] :=
    @SplitsLines.lineFeed "a = 1".toList "print (".toList ["print (".toList] (by decide) (by decide)
      (.last (by decide) (by decide))
  have htokens : Token.ofLine "print (".toList = [.print, .opening] := by decide +kernel
  have hline : readLine "print (".toList = .error .invalid := by
    simp only [readLine, htokens]
    rfl
  have hall := fault_leaves_prefix .empty .empty
  obtain ⟨k, ⟨l, f, hl, -, -, houtput, -, hrun, -⟩, -⟩ := hall.1 p message hfault
  have hsource := hall.2 "a = 1\nprint (" _ _ _ hlines (by decide) hline
  exact ⟨hfault, ⟨k, l, hl, hrun, houtput⟩, hlines, hline, hsource.1⟩

end Script
end CodeSessions
