import CodeSessions.Proofs.Script.Integers
import CodeSessions.Proofs.Script.Literals
import CodeSessions.Proofs.Script.Operators

/-!
# Growth — no text outgrows the limit

A text is made by `+`, by `*`, or is written out in a source.  The operators check the length of
what they make, so from sources of at most `maxTextBytes` no longer text comes about.

- `eval_fits`: expressions keep to that if their literals and the bindings do,
- `runFrom_fits`: so do the effects of a program,
- `evaluateAll`: the bindings after a series of evaluations,
- `text_growth` puts this together, and says when the check strikes.
-/

namespace CodeSessions
namespace Script

/-! ## Expressions -/

/-- All bound values fit. -/
def Fit (env : Bindings) : Prop :=
  ∀ name v, env.get? name = some v → v.Fits

def Expr.Fits (e : Expr) : Prop :=
  ∀ v, Expr.Within (.literal v) e → v.Fits

theorem Expr.Fits.within {e root : Expr} (h : root.Fits) (hwithin : e.Within root) : e.Fits :=
  fun v hv => h v (hv.trans hwithin)

/-- A chain is true or false. -/
theorem evalLinks_kind {env : Bindings} {left v : Value} {links : List (BinaryOp × Expr)}
    (h : evalLinks env left links = .ok v) : v.kind = .bool := by
  induction links generalizing left with
  | nil =>
      simp only [evalLinks] at h
      cases h
      rfl
  | cons link links ih =>
      rcases link with ⟨op, right⟩
      simp only [evalLinks] at h
      rcases ok_of_bind_eq_ok h with ⟨b, _, h⟩
      rcases ok_of_bind_eq_ok h with ⟨holds, _, h⟩
      split at h
      · exact ih h
      · cases h
        rfl

theorem eval_fits {env : Bindings} {v : Value} (henv : Fit env) : ∀ {e : Expr}, e.Fits →
    eval env e = .ok v → v.Fits
  | .literal value, he, h => by
      simp only [eval] at h
      cases h
      exact he v .self
  | .name name, _, h => by
      simp only [eval] at h
      split at h
      · rename_i hget
        cases h
        exact henv name v hget
      · cases h
  | .unary op operand, _, h => by
      simp only [eval] at h
      rcases ok_of_bind_eq_ok h with ⟨a, _, h⟩
      exact (admissible_applyUnary _ _).fits h
  | .binary op left right, he, h => by
      have hleft : left.Fits := he.within (.left .self)
      have hright : right.Fits := he.within (.right .self)
      by_cases hand : op = .and
      · subst hand
        simp only [eval] at h
        rcases ok_of_bind_eq_ok h with ⟨a, ha, h⟩
        split at h
        · exact eval_fits henv hright h
        · cases h
          exact eval_fits henv hleft ha
      · by_cases hor : op = .or
        · subst hor
          simp only [eval] at h
          rcases ok_of_bind_eq_ok h with ⟨a, ha, h⟩
          split at h
          · cases h
            exact eval_fits henv hleft ha
          · exact eval_fits henv hright h
        · simp only [eval] at h
          rcases ok_of_bind_eq_ok h with ⟨a, _, h⟩
          rcases ok_of_bind_eq_ok h with ⟨b, _, h⟩
          exact (admissible_applyBinary _ _ _).fits h
  | .chain first links, _, h => by
      simp only [eval] at h
      rcases ok_of_bind_eq_ok h with ⟨a, _, h⟩
      exact Value.fits_of_kind (by simp [evalLinks_kind h])

/-! ## Runs -/

def EffectFits : Effect → Prop
  | .bind _ v => v.Fits
  | .replace env => Fit env
  | .write _ => True

theorem fit_empty : Fit .empty := by
  intro name v h
  simp at h

theorem Fit.onBindings {env : Bindings} {e : Effect} (henv : Fit env) (he : EffectFits e) :
    Fit (e.onBindings env) := by
  cases e with
  | bind target v =>
      intro name v' h
      simp only [Effect.onBindings, Table.get?_set] at h
      split at h
      · cases h
        exact he
      · exact henv name v' h
  | replace env => exact he
  | write bytes => exact henv

theorem Fit.foldl {env : Bindings} {effects : List Effect} (henv : Fit env)
    (heffects : ∀ e ∈ effects, EffectFits e) : Fit (effects.foldl Effect.onBindings env) := by
  induction effects generalizing env with
  | nil => exact henv
  | cons e effects ih =>
      have hhead := henv.onBindings (heffects e List.mem_cons_self)
      exact ih hhead fun e' he' => heffects e' (List.mem_cons_of_mem e he')

/-- What a statement binds fits, if what it mentions does. -/
theorem Stmt.run_fits {env : Bindings} {spaced spaced' : Bool} {s : Stmt} {e : Effect}
    (henv : Fit env) (hs : ∀ root ∈ s.exprs, root.Fits)
    (h : s.run env spaced = .ok (some e, spaced')) : EffectFits e := by
  cases s with
  | assign target value =>
      rcases ok_of_bind_eq_ok h with ⟨v, hv, h⟩
      cases h
      exact eval_fits henv (hs value List.mem_cons_self) hv
  | print items newline =>
      rcases ok_of_bind_eq_ok h with ⟨⟨text, left⟩, _, h⟩
      cases newline <;>
      · cases h
        trivial
  | expr value =>
      rcases ok_of_bind_eq_ok h with ⟨v, _, h⟩
      cases h

theorem runFrom_fits {p : Program} (hp : ∀ l ∈ p, ∀ root ∈ l.statement.exprs, root.Fits)
    {env : Bindings} (henv : Fit env) (spaced : Bool) {done : List Effect}
    (hdone : ∀ e ∈ done, EffectFits e) :
    ∀ e ∈ (runFrom env spaced done p).effects, EffectFits e := by
  induction p generalizing env spaced done with
  | nil => simpa [runFrom] using hdone
  | cons l rest ih =>
      have hrest : ∀ l' ∈ rest, ∀ root ∈ l'.statement.exprs, root.Fits :=
        fun l' hl' => hp l' (List.mem_cons_of_mem l hl')
      simp only [runFrom]
      split
      · simpa using hdone
      · exact ih hrest henv _ hdone
      · rename_i effect spaced' hrun
        have heffect := Stmt.run_fits henv (hp l List.mem_cons_self) hrun
        refine ih hrest (henv.onBindings heffect) _ ?_
        intro e he
        rcases List.mem_cons.1 he with rfl | he
        · exact heffect
        · exact hdone e he

/-- The expressions of a source that is not too long itself. -/
theorem fits_of_mentions {source : String} (hsource : source.utf8ByteSize ≤ maxTextBytes)
    {p : Program} (hp : programOfSource source.toList = .ok p) {l : Located} (hl : l ∈ p)
    {e : Expr} (he : l.Mentions e) : e.Fits := by
  rcases he with ⟨root, hroot, hwithin⟩
  rintro v hv s rfl
  have hle := utf8ByteSize_le_of_mentions hp hl ⟨root, hroot, hv.trans hwithin⟩
  exact Nat.le_trans hle hsource

theorem interpreter_fits {source : String} (hsource : source.utf8ByteSize ≤ maxTextBytes)
    {env : Bindings} (henv : Fit env) : ∀ e ∈ (interpreter source env).effects, EffectFits e := by
  unfold interpreter
  split
  · simp
  · rename_i p hp
    have hroots : ∀ l ∈ p, ∀ root ∈ l.statement.exprs, root.Fits :=
      fun l hl root hroot => fits_of_mentions hsource hp hl ⟨root, hroot, .self⟩
    exact runFrom_fits hroots henv false (by simp)

/-- The bindings after evaluations of the sources, one after the other and faults or not. -/
def evaluateAll (sources : List String) : Bindings :=
  sources.foldl (fun env source => (interpreter source env).bindings env) .empty

theorem evaluateAll_fits {sources : List String}
    (hsources : ∀ source ∈ sources, source.utf8ByteSize ≤ maxTextBytes) :
    Fit (evaluateAll sources) := by
  induction sources using List.reverseRecOn with
  | nil => exact fit_empty
  | append_singleton sources source ih =>
      have henv := ih fun s hs => hsources s (List.mem_append_left _ hs)
      have heffects := interpreter_fits (hsources source (by simp)) henv
      have hfit := henv.foldl heffects
      simpa [evaluateAll, Evaluation.bindings] using hfit

/-! ## The check of the length -/

theorem replicate_eq_join (s : String) (n : Nat) :
    Text.replicate s n = String.join (List.replicate n s) := by
  apply String.toList_injective
  simp [Text.toList_replicate, String.toList_join, List.flatMap]

theorem repeatText_eq (s : String) (m : Int64) :
    repeatText s m =
      if (s.utf8ByteSize : Int) * max m.toInt 0 ≤ maxTextBytes then
        .ok (.text (String.join (List.replicate m.toInt.toNat s)))
      else .error .textTooLong := by
  have hmax : max m.toInt 0 = (m.toInt.toNat : Int) := (Int.toNat_eq_max m.toInt).symm
  have hsize : (s.utf8ByteSize : Int) * max m.toInt 0 ≤ maxTextBytes ↔
      s.utf8ByteSize * m.toInt.toNat ≤ maxTextBytes := by
    rw [hmax]
    exact_mod_cast Iff.rfl
  simp only [repeatText, hsize, replicate_eq_join]

/-- A text may stand on either side of the count. -/
theorem arithmetic_multiply {s : String} {count : Value} {n : Int} (h : Counts count n) :
    let result : Except Fault Value :=
      if (s.utf8ByteSize : Int) * max n 0 ≤ maxTextBytes then
        .ok (.text (String.join (List.replicate n.toNat s)))
      else .error .textTooLong
    arithmetic .multiply (.text s) count = result ∧
      arithmetic .multiply count (.text s) = result := by
  rcases h.exists_int with ⟨m, hm, rfl⟩
  have hright : arithmetic .multiply count (.text s) = repeatText s m := by
    cases count with
    | text t => cases hm
    | _ => simp only [arithmetic, hm]
  exact ⟨by simp only [arithmetic, hm, repeatText_eq], hright.trans (repeatText_eq s m)⟩

/-! ## Series of evaluations -/

/-- A text that the second of two evaluations doubles. -/
theorem effects_doubled :
    (interpreter "a = a + a" (evaluateAll ["a = 'x'"])).effects =
      [Effect.bind "a" (.text "xx")] := by
  have hfirstTokens : Token.ofLine "a = 'x'".toList =
      [.name "a", .assign, .literal (.text "x")] := by decide +kernel
  have hsecondTokens : Token.ofLine "a = a + a".toList =
      [.name "a", .assign, .name "a", .op .add, .name "a"] := by decide +kernel
  have hfirst : programOfSource "a = 'x'".toList =
      .ok [⟨1, .assign "a" (.literal (.text "x"))⟩] := by
    have hlines : Text.lines "a = 'x'".toList = ["a = 'x'".toList] := by decide +kernel
    simp only [programOfSource, hlines, programFrom, readLine, hfirstTokens]
    rfl
  have hsecond : programOfSource "a = a + a".toList =
      .ok [⟨1, .assign "a" (.binary .add (.name "a") (.name "a"))⟩] := by
    have hlines : Text.lines "a = a + a".toList = ["a = a + a".toList] := by decide +kernel
    simp only [programOfSource, hlines, programFrom, readLine, hsecondTokens]
    rfl
  simp only [interpreter, hsecond, evaluateAll, List.foldl_cons, List.foldl_nil, hfirst]
  rfl

/-- After any sources and a part of the effects of the next one, no text is longer than the limit,
whether it is bound to a name or is the value of an expression that a source mentions.  The check of
`+` and `*` strikes exactly where the limit would be exceeded. -/
theorem text_growth {sources : List String}
    (hsources : ∀ source ∈ sources, source.utf8ByteSize ≤ 16777216) {source : String}
    (hsource : source.utf8ByteSize ≤ 16777216) {done : List Effect}
    (hdone : done <+: (interpreter source (evaluateAll sources)).effects) :
    let env := done.foldl Effect.onBindings (evaluateAll sources)
    (∀ name s, env.get? name = some (.text s) → s.utf8ByteSize ≤ 16777216) ∧
    (∀ (other : String) p l e s, other.utf8ByteSize ≤ 16777216 →
      programOfSource other.toList = .ok p → l ∈ p → l.Mentions e → eval env e = .ok (.text s) →
      s.utf8ByteSize ≤ 16777216) ∧
    (∀ left right a b, eval env left = .ok (.text a) → eval env right = .ok (.text b) →
      eval env (.binary .add left right) =
        if a.utf8ByteSize + b.utf8ByteSize ≤ 16777216 then .ok (.text (a ++ b))
        else .error .textTooLong) ∧
    (∀ left right s count n, Counts count n →
      (eval env left = .ok (.text s) ∧ eval env right = .ok count) ∨
        (eval env left = .ok count ∧ eval env right = .ok (.text s)) →
      eval env (.binary .multiply left right) =
        if (s.utf8ByteSize : Int) * max n 0 ≤ 16777216 then
          .ok (.text (String.join (List.replicate n.toNat s)))
        else .error .textTooLong) ∧
    Fault.textTooLong.kind.title = "MemoryError" := by
  intro env
  have hall := evaluateAll_fits hsources
  have henv : Fit env := hall.foldl fun e he => interpreter_fits hsource hall e (hdone.subset he)
  refine ⟨fun name s h => henv name _ h s rfl, ?_, ?_, ?_, rfl⟩
  · intro other p l e s hother hp hl he h
    exact eval_fits henv (fits_of_mentions hother hp hl he) h s rfl
  · intro left right a b ha hb
    simp only [eval, ha, hb]
    rfl
  · intro left right s count n hcount h
    rcases arithmetic_multiply (s := s) hcount with ⟨hleft, hright⟩
    rcases h with ⟨ha, hb⟩ | ⟨ha, hb⟩
    · simp only [eval, ha, hb]
      exact hleft
    · simp only [eval, ha, hb]
      exact hright

/-- A text doubled in the second of two evaluations. -/
theorem text_growth_doubled :
    ("a = 'x'".utf8ByteSize ≤ 16777216 ∧ "a = a + a".utf8ByteSize ≤ 16777216) ∧
    [Effect.bind "a" (.text "xx")] <+: (interpreter "a = a + a" (evaluateAll ["a = 'x'"])).effects ∧
    ∀ name s, ((evaluateAll ["a = 'x'"]).set "a" (.text "xx")).get? name = some (.text s) →
      s.utf8ByteSize ≤ 16777216 := by
  have hfirst : ∀ source ∈ ["a = 'x'"], source.utf8ByteSize ≤ 16777216 := by
    intro source h
    cases List.mem_singleton.1 h
    decide
  have hsecond : "a = a + a".utf8ByteSize ≤ 16777216 := by decide
  have hdone : [Effect.bind "a" (.text "xx")] <+:
      (interpreter "a = a + a" (evaluateAll ["a = 'x'"])).effects :=
    effects_doubled ▸ List.prefix_refl _
  exact ⟨⟨by decide, hsecond⟩, hdone, (text_growth hfirst hsecond hdone).1⟩

end Script
end CodeSessions
