import CodeSessions.Proofs.Number.Lengths
import CodeSessions.Proofs.Script.Growth
import CodeSessions.Proofs.Script.OutputLines

/-!
# Printing — how much a `print` writes

The operators keep every text below the limit.  A `print` puts the texts of its items together
without looking at the length of what it makes.

- `Value.utf8ByteSize_display_le`: no value is displayed at a greater length than the limit,
- `Print.utf8ByteSize_text` is the size of what a `print` writes,
- `print_size` says what becomes of a `print` that is reached,
- `print_not_bounded`: with two items it can write more than the limit.
-/

namespace CodeSessions

/-! ## Displayed values -/

theorem utf8ByteSize_repr_toInt_le (n : Int64) : n.toInt.repr.utf8ByteSize ≤ 80 := by
  have hlow := n.le_toInt
  have hhigh := n.toInt_lt
  rw [Int.repr_eq_if]
  split
  · have hn : n.toInt.toNat < 10 ^ 19 := by omega
    have hrepr := utf8ByteSize_repr_le (by decide) hn
    omega
  · have hn : (-n.toInt).toNat < 10 ^ 19 := by omega
    have hrepr := utf8ByteSize_repr_le (by decide) hn
    have hsign : "-".utf8ByteSize = 1 := by decide
    rw [String.utf8ByteSize_append]
    omega

theorem Value.utf8ByteSize_display_le {v : Value} (h : v.Fits) :
    v.display.utf8ByteSize ≤ Script.maxTextBytes := by
  cases v with
  | none => decide
  | bool b => cases b <;> decide
  | int n => exact (utf8ByteSize_repr_toInt_le n).trans (by decide)
  | float x => exact (Decimal.utf8ByteSize_text_le x).trans (by decide)
  | text s => exact h s rfl

namespace Script

variable {env : Bindings}

/-! ## The size of prints -/

def displayedBytes (values : List Value) : Nat :=
  (values.map fun v => v.display.utf8ByteSize).sum

theorem displayedBytes_le {values : List Value} {bound : Nat}
    (h : ∀ v ∈ values, v.display.utf8ByteSize ≤ bound) :
    displayedBytes values ≤ values.length * bound := by
  have hsum := List.sum_le_card_nsmul (values.map fun v => v.display.utf8ByteSize) bound
    (List.forall_mem_map.2 h)
  simpa [displayedBytes] using hsum

theorem utf8ByteSize_row_true (values : List Value) :
    (row true values).utf8ByteSize = displayedBytes values + values.length := by
  induction values with
  | nil => rfl
  | cons v values ih =>
      have hblank : " ".utf8ByteSize = 1 := by decide
      simp only [row, if_true, String.utf8ByteSize_append, ih, hblank, displayedBytes,
        List.map_cons, List.sum_cons, List.length_cons]
      omega

/-- Each value but the first on its line has a space before it. -/
theorem utf8ByteSize_row (spaced : Bool) (values : List Value) :
    (row spaced values).utf8ByteSize =
      displayedBytes values + (values.length - if spaced then 0 else 1) := by
  cases spaced with
  | true => exact utf8ByteSize_row_true values
  | false =>
      cases values with
      | nil => rfl
      | cons v values =>
          have htrue := utf8ByteSize_row_true (v :: values)
          have hblank : " ".utf8ByteSize = 1 := by decide
          rw [row_true, String.utf8ByteSize_append, hblank] at htrue
          simp only [Bool.false_eq_true, if_false, List.length_cons] at htrue ⊢
          omega

theorem Print.utf8ByteSize_text (print : Print) (spaced : Bool) :
    (print.text spaced).utf8ByteSize =
      displayedBytes print.values + (print.values.length - if spaced then 0 else 1) +
        if print.newline then 1 else 0 := by
  have hend : (if print.newline then "\n" else "").utf8ByteSize =
      if print.newline then 1 else 0 := by
    split <;> decide
  rw [Print.text, String.utf8ByteSize_append, utf8ByteSize_row, hend]

theorem Print.utf8ByteSize_text_le {print : Print} {bound : Nat}
    (h : ∀ v ∈ print.values, v.display.utf8ByteSize ≤ bound) (spaced : Bool) :
    (print.text spaced).utf8ByteSize ≤ print.values.length * (bound + 1) + 1 := by
  have htotal := displayedBytes_le h
  have hblanks : print.values.length - (if spaced then 0 else 1) ≤ print.values.length :=
    Nat.sub_le _ _
  have hend : (if print.newline then 1 else 0) ≤ 1 := by split <;> decide
  rw [print.utf8ByteSize_text, Nat.mul_add_one]
  omega

/-! ## Values of items -/

theorem forall₂_of_mapM_eq_ok {items : List Expr} {values : List Value}
    (h : items.mapM (eval env) = .ok values) :
    List.Forall₂ (fun item v => eval env item = .ok v) items values := by
  induction items generalizing values with
  | nil =>
      cases h
      exact .nil
  | cons item items ih =>
      rw [List.mapM_cons] at h
      obtain ⟨v, hv, h⟩ := ok_of_bind_eq_ok h
      obtain ⟨vs, hvs, h⟩ := ok_of_bind_eq_ok h
      cases h
      exact .cons hv (ih hvs)

theorem fits_of_forall₂ {items : List Expr} {values : List Value} (henv : Fit env)
    (hitems : ∀ item ∈ items, item.Fits)
    (h : List.Forall₂ (fun item v => eval env item = .ok v) items values) :
    ∀ v ∈ values, v.Fits := by
  induction h with
  | nil => nofun
  | cons hv _ ih =>
      obtain ⟨hitem, hitems⟩ := List.forall_mem_cons.1 hitems
      exact List.forall_mem_cons.2 ⟨eval_fits henv hitem hv, ih hitems⟩

/-- The bindings at any position of a run fit, if those at its start and the literals do. -/
theorem fit_bindings_run {p : Program} (hp : ∀ l ∈ p, ∀ root ∈ l.statement.exprs, root.Fits)
    (henv : Fit env) (k : Nat) : Fit ((run (p.take k) env).bindings env) :=
  henv.foldl (runFrom_fits (fun l hl => hp l (List.mem_of_mem_take hl)) henv false (by simp))

/-! ## A text printed twice -/

theorem programOfSource_print_twice :
    programOfSource "print s, s".toList =
      .ok [⟨1, .print [.name "s", .name "s"] true⟩] := by
  have hlines : Text.lines "print s, s".toList = ["print s, s".toList] := by decide +kernel
  have htokens : Token.ofLine "print s, s".toList =
      [.print, .name "s", .comma, .name "s"] := by decide +kernel
  simp only [programOfSource, hlines, programFrom, readLine, htokens]
  rfl

theorem not_mentions_of_print_twice {l : Located} {s : String}
    (hl : l ∈ [Located.mk 1 (.print [.name "s", .name "s"] true)]) :
    ¬ l.Mentions (.literal (.text s)) := by
  rintro ⟨root, hroot, hwithin⟩
  obtain rfl := List.mem_singleton.1 hl
  have hname : root = .name "s" := by simpa [Stmt.exprs] using hroot
  subst hname
  cases hwithin

theorem fit_single {s : String} (hs : s.utf8ByteSize ≤ 16777216) (name : String) (t : String)
    (h : (Table.empty.set "s" (Value.text s)).get? name = some (.text t)) :
    t.utf8ByteSize ≤ 16777216 := by
  rw [Table.get?_set] at h
  split at h
  · cases h
    exact hs
  · cases h

theorem effects_print_twice (s : String) :
    (interpreter "print s, s" (Table.empty.set "s" (.text s))).effects =
      [.write (s ++ " " ++ s ++ "\n").toUTF8] := by
  simp only [interpreter, programOfSource_print_twice, run, runFrom, Stmt.run, renderItems, eval]
  rfl

/-! ## Prints that are reached -/

/-- A `print` that is reached writes all its items, however much that is, or writes nothing because
one of them faults. -/
theorem print_size {env : Bindings} {source : String} {p : Program}
    (hread : programOfSource source.toList = .ok p)
    (henv : ∀ name s, env.get? name = some (.text s) → s.utf8ByteSize ≤ 16777216)
    (hliterals : ∀ l ∈ p, ∀ s, l.Mentions (.literal (.text s)) → s.utf8ByteSize ≤ 16777216)
    {k line : Nat} {items : List Expr} {newline : Bool}
    (hprint : p[k]? = some ⟨line, .print items newline⟩)
    (hreached : (run (p.take k) env).fault = none) :
    let before := run (p.take k) env
    let spaced := openAfter false (prints (completed env (p.take k)))
    (∃ values later, items.mapM (eval (before.bindings env)) = .ok values ∧
      (∀ v ∈ values, v.display.utf8ByteSize ≤ 16777216) ∧
      let text := Print.text ⟨values, newline⟩ spaced
      (interpreter source env).effects = before.effects ++ .write text.toUTF8 :: later ∧
      text.utf8ByteSize = displayedBytes values + (values.length - if spaced then 0 else 1) +
        (if newline then 1 else 0) ∧
      text.utf8ByteSize ≤ items.length * 16777217 + 1) ∨
    ∃ f, FirstFault (before.bindings env) f items ∧
      interpreter source env = ⟨before.effects, some (f.report line)⟩ := by
  intro before spaced
  have hroots : ∀ l ∈ p, ∀ root ∈ l.statement.exprs, root.Fits := by
    intro l hl root hroot v hv s hs
    exact hliterals l hl s ⟨root, hroot, hs ▸ hv⟩
  have hfit : Fit (before.bindings env) := fit_bindings_run hroots (fun name v hv s hs =>
    henv name s (hs ▸ hv)) k
  have hitems : ∀ item ∈ items, item.Fits := hroots _ (List.mem_of_getElem? hprint)
  have hrun : interpreter source env = run p env := by
    simp only [interpreter, hread]
  cases hvalues : items.mapM (eval (before.bindings env)) with
  | error f =>
      have hevaluate : (Stmt.print items newline).evaluate (before.bindings env) = .error f := by
        rw [Stmt.evaluate, hvalues]
        rfl
      have hfault : FirstFault (before.bindings env) f items :=
        Stmt.run_eq_error_iff.1 (@Stmt.run_of_error _ false _ _ hevaluate)
      have hat : FaultsAt p env k ⟨line, .print items newline⟩ f := ⟨hprint, hreached, hfault⟩
      exact .inr ⟨f, hfault, hrun.trans hat.run_eq⟩
  | ok values =>
      have hevaluate : (Stmt.print items newline).evaluate (before.bindings env) =
          .ok (.printed ⟨values, newline⟩) := by
        rw [Stmt.evaluate, hvalues]
        rfl
      obtain ⟨later, heffects⟩ :=
        exists_effects_run (getElem?_completed_eq_some_iff.2 ⟨_, hprint, hreached, hevaluate⟩)
      have hall := forall₂_of_mapM_eq_ok hvalues
      have hdisplay : ∀ v ∈ values, v.display.utf8ByteSize ≤ 16777216 := fun v hv =>
        Value.utf8ByteSize_display_le (fits_of_forall₂ hfit hitems hall v hv)
      have hle := @Print.utf8ByteSize_text_le ⟨values, newline⟩ _ hdisplay spaced
      exact .inl ⟨values, later, rfl, hdisplay, hrun ▸ heffects,
        Print.utf8ByteSize_text ⟨values, newline⟩ spaced, hall.length_eq ▸ hle⟩

/-- Two texts that fit are printed, and what is written does not. -/
theorem print_size_doubled :
    let s := Text.replicate "a" 16777216
    let env : Bindings := Table.empty.set "s" (.text s)
    programOfSource "print s, s".toList = .ok [⟨1, .print [.name "s", .name "s"] true⟩] ∧
    s.utf8ByteSize = 16777216 ∧
    ∃ (text : String) (later : List Effect),
      (interpreter "print s, s" env).effects = .write text.toUTF8 :: later ∧
      text.utf8ByteSize = 33554434 := by
  intro s env
  have hs : s.utf8ByteSize = 16777216 := utf8ByteSize_replicate "a" 16777216
  clear_value s
  have hvalues : [Expr.name "s", .name "s"].mapM (eval env) = .ok [.text s, .text s] := by
    simp only [env, List.mapM_cons, List.mapM_nil, eval]
    rfl
  rcases print_size programOfSource_print_twice (fit_single hs.le)
    (fun l hl t ht => absurd ht (not_mentions_of_print_twice hl)) (k := 0) rfl rfl with
    ⟨values, later, hvalues', -, heffects, hsize, -⟩ | ⟨f, hfault, -⟩
  · cases hvalues.symm.trans hvalues'
    have htotal : displayedBytes [.text s, .text s] = 33554432 := by
      simp [displayedBytes, Value.display, hs]
    rw [htotal] at hsize
    exact ⟨programOfSource_print_twice, hs, _, later, heffects, hsize⟩
  · -- both items have a value
    rcases hfault with hname | ⟨-, hname | ⟨-, hnone⟩⟩
    · cases hname
    · cases hname
    · cases hnone

/-- The check of the operators does not bound what is printed. -/
theorem print_not_bounded :
    ¬ ∀ (env : Bindings) (source : String) (p : Program),
      programOfSource source.toList = .ok p →
      (∀ name s, env.get? name = some (.text s) → s.utf8ByteSize ≤ 16777216) →
      (∀ l ∈ p, ∀ s, l.Mentions (.literal (.text s)) → s.utf8ByteSize ≤ 16777216) →
      ∀ bytes, .write bytes ∈ (interpreter source env).effects → bytes.size ≤ 16777216 := by
  intro hall
  have hs : (Text.replicate "a" 16777216).utf8ByteSize = 16777216 :=
    utf8ByteSize_replicate "a" 16777216
  generalize Text.replicate "a" 16777216 = s at hs
  have hwritten : .write (s ++ " " ++ s ++ "\n").toUTF8 ∈
      (interpreter "print s, s" (Table.empty.set "s" (.text s))).effects := by
    rw [effects_print_twice]
    exact List.mem_singleton_self _
  have hbound : (s ++ " " ++ s ++ "\n").utf8ByteSize ≤ 16777216 :=
    hall (Table.empty.set "s" (.text s)) "print s, s" _ programOfSource_print_twice
      (fit_single hs.le) (fun l hl t ht => absurd ht (not_mentions_of_print_twice hl)) _ hwritten
  simp only [String.utf8ByteSize_append] at hbound
  omega

end Script
end CodeSessions
