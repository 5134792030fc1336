import CodeSessions.Proofs.Script.Integers
import CodeSessions.Proofs.Script.LineByLine

/-!
# Displayed values — what is shown can be read back

`None`, the booleans and the integers are displayed as expressions of the language.

- `digitsValue_toDigits`: the digits that are written for a number denote it,
- `programOfSource_of_signed`: a line that spells a literal with signs is a program,
- `displayed_reads_back`.

A sign is an operator and no part of a literal.  So a negative integer is read as the negation of
its absolute value, and the least one, which has none among the 64-bit integers, is not read at all
(`least_not_read_back`).
-/

namespace CodeSessions
namespace Script

/-! ## Expressions without binary operators -/

/-- An operand alone is an expression of the level around it. -/
theorem Derives.lone {l k : Level} {ts : List Token} {e : Expr} {depth count : Nat}
    (hk : l.operand? = some k) (h : Derives k ts e depth count) : Derives l ts e depth count := by
  have hjoin : l.join e [] = e := by cases l <;> rfl
  simpa [hjoin] using Derives.joined hk h (.nil l)

theorem Derives.of_signed {ts : List Token} {e : Expr} {depth count : Nat}
    (h : Derives .signed ts e depth count) : Derives .disjunction ts e depth count := by
  have hproduct : Derives .product ts e depth count := h.lone rfl
  have hsum : Derives .sum ts e depth count := hproduct.lone rfl
  have hcomparison : Derives .comparison ts e depth count := hsum.lone rfl
  have hnegation : Derives .negation ts e depth count := .affirmed hcomparison
  have hconjunction : Derives .conjunction ts e depth count := hnegation.lone rfl
  exact hconjunction.lone rfl

/-! ## Lines without blanks -/

theorem spells_nil : Spells [] [] :=
  .blank (s := []) nofun

theorem Lexeme.spells {w rest : List Char} {t : Token} {ts : List Token} (h : Lexeme w rest t)
    (hrest : Spells rest ts) : Spells (w ++ rest) (t :: ts) :=
  .token (s := []) nofun h hrest

/-- A line that spells an expression with no operators but signs is a program. -/
theorem programOfSource_of_signed {line : List Char} {ts : List Token} {e : Expr}
    {depth count : Nat} (hline : '\n' ∉ line) (hspells : Spells line ts)
    (h : Derives .signed ts e depth count) (hdepth : depth ≤ 64) (hcount : count ≤ 512) :
    programOfSource line = .ok [⟨1, .expr e⟩] := by
  have hstatement : LineDerives ts [.expr e] depth count := .statements (.one (.expr h.of_signed))
  have hread : readLine line = .ok [.expr e] :=
    readLine_eq_ok_iff.2 ⟨ts, depth, count, hspells, hstatement, hdepth, hcount⟩
  rw [programOfSource_line hline, hread]
  rfl

/-! ## Digits -/

theorem digitsValue_toDigits (n : Nat) : Token.digitsValue (Nat.toDigits 10 n) = n := by
  have hvalue : Nat.ofDigitChars 10 (Nat.toDigits 10 n) 0 = n := Nat.ofDigitChars_ten_toDigits
  rwa [Nat.ofDigitChars_eq_foldl] at hvalue

/-- The digits of a number within the 64-bit range are a literal. -/
theorem lexeme_repr {n : Int64} {k : Nat} (hn : n.toInt = k) :
    Lexeme k.repr.toList [] (.literal (.int n)) := by
  rw [Nat.toList_repr]
  refine .integer Nat.toDigits_ne_nil (fun d hd => ?_) ?_
  · exact Nat.isDigit_of_mem_toDigits (by decide) (by decide) hd
  · rw [digitsValue_toDigits, hn]

theorem lineFeed_not_mem_repr (k : Nat) : '\n' ∉ k.repr.toList := by
  rw [Nat.toList_repr]
  intro hmem
  cases Nat.isDigit_of_mem_toDigits (by decide) (by decide) hmem

/-! ## Displayed values -/

theorem programOfSource_of_literal {w : String} {v : Value} (h : Lexeme w.toList [] (.literal v))
    (hline : '\n' ∉ w.toList) :
    programOfSource w.toList = .ok [⟨1, .expr (.literal v)⟩] := by
  have hspells : Spells w.toList [.literal v] := by simpa using h.spells spells_nil
  exact programOfSource_of_signed hline hspells (.unsigned (.literal v)) (by decide) (by decide)

theorem programOfSource_of_negated {w : String} {v : Value} (h : Lexeme w.toList [] (.literal v))
    (hline : '\n' ∉ w.toList) :
    programOfSource ("-" ++ w).toList = .ok [⟨1, .expr (.unary .negate (.literal v))⟩] := by
  have hsign : Lexeme "-".toList w.toList (.op .subtract) := .symbol (by simp [symbols])
  have hspells : Spells ("-" ++ w).toList [.op .subtract, .literal v] := by
    simpa using hsign.spells (by simpa using h.spells spells_nil)
  have hderives : Derives .signed [.op .subtract, .literal v] (.unary .negate (.literal v)) 1 1 :=
    .negate (.unsigned (.literal v))
  have hline' : '\n' ∉ ("-" ++ w).toList := by simpa using hline
  exact programOfSource_of_signed hline' hspells hderives (by decide) (by decide)

/-- Every integer but the least one has an opposite among the 64-bit integers. -/
theorem exists_opposite {n : Int64} (hn : n ≠ Int64.minValue) :
    ∃ m : Int64, m.toInt = -n.toInt := by
  have hleast : n.toInt ≠ -2 ^ 63 := by
    rw [← Int64.toInt_minValue, ne_eq, Int64.toInt_inj]
    exact hn
  have hfits : fit? (-n.toInt) ≠ none := by
    have hlow := n.le_toInt
    have hhigh := n.toInt_lt
    rw [ne_eq, fit?_eq_none_iff]
    omega
  obtain ⟨m, hm⟩ := Option.ne_none_iff_exists'.1 hfits
  exact ⟨m, fit?_eq_some_iff.1 hm⟩

/-- An integer that is not negative is displayed as a literal, and any other but the least one as
the negation of a literal. -/
theorem exists_expr_of_int {n : Int64} (hn : n ≠ Int64.minValue) :
    ∃ e, programOfSource (Value.int n).display.toList = .ok [⟨1, .expr e⟩] ∧
      ∀ env, eval env e = .ok (.int n) := by
  have hliteral : ∀ (m : Int64) env, eval env (.literal (.int m)) = .ok (.int m) :=
    fun m env => by simp only [eval]
  have hdisplay : (Value.int n).display = n.toInt.repr := rfl
  rw [hdisplay, Int.repr_eq_if]
  split
  · have hdigits : n.toInt = n.toInt.toNat := by omega
    exact ⟨.literal (.int n), programOfSource_of_literal (lexeme_repr hdigits)
      (lineFeed_not_mem_repr _), hliteral n⟩
  · obtain ⟨m, hm⟩ := exists_opposite hn
    have hdigits : m.toInt = (-n.toInt).toNat := by omega
    refine ⟨.unary .negate (.literal (.int m)), programOfSource_of_negated (lexeme_repr hdigits)
      (lineFeed_not_mem_repr _), fun env => ?_⟩
    -- negated once more, the absolute value is the integer itself, which is in the range
    rw [(eval_unary_counts (hliteral m env) (.int m)).1, exactInt_eq_ok_iff]
    exact ⟨n, rfl, by omega⟩

/-- The absolute value of the least integer is too large for a literal. -/
theorem programOfSource_least :
    programOfSource (Value.int Int64.minValue).display.toList = .error ⟨1, .invalid⟩ := by
  have hdisplay : (Value.int Int64.minValue).display = "-9223372036854775808" := by decide +kernel
  have htokens : Token.ofLine "-9223372036854775808".toList = [.op .subtract, .stray] := by
    decide +kernel
  rw [hdisplay, programOfSource_line (by decide)]
  simp only [readLine, htokens]
  rfl

/-- What is displayed for `None`, a boolean or an integer is a statement that consists of an
expression, and in every environment the expression has the value that was displayed.  The least
integer alone is displayed as something that cannot be read. -/
theorem displayed_reads_back {v : Value} (hv : v.kind ∈ [Kind.none, .bool, .int]) :
    (v ≠ .int Int64.minValue →
      ∃ e, programOfSource v.display.toList = .ok [⟨1, .expr e⟩] ∧ ∀ env, eval env e = .ok v) ∧
    (v = .int Int64.minValue →
      programOfSource v.display.toList = .error ⟨1, .invalid⟩) := by
  have hword : ∀ {w : String} {v : Value}, (w, Token.literal v) ∈ reserved → '\n' ∉ w.toList →
      ∃ e, programOfSource w.toList = .ok [⟨1, .expr e⟩] ∧ ∀ env, eval env e = .ok v := by
    intro w v hmem hline
    refine ⟨.literal v, programOfSource_of_literal (.word hmem (.nil _)) hline, fun env => ?_⟩
    simp only [eval]
  constructor
  · intro hne
    cases v with
    | none => exact hword (w := "None") (by simp [reserved]) (by decide)
    | bool b =>
        cases b with
        | true => exact hword (w := "True") (by simp [reserved]) (by decide)
        | false => exact hword (w := "False") (by simp [reserved]) (by decide)
    | int n => exact exists_expr_of_int fun hn => hne (hn ▸ rfl)
    | float x => simp [Value.kind] at hv
    | text s => simp [Value.kind] at hv
  · rintro rfl
    exact programOfSource_least

/-- The integer next to the least one. -/
theorem displayed_reads_back_negative :
    (Value.int (-9223372036854775807)).kind ∈ [Kind.none, .bool, .int] ∧
      Value.int (-9223372036854775807) ≠ .int Int64.minValue ∧
      ∃ e, programOfSource "-9223372036854775807".toList = .ok [⟨1, .expr e⟩] ∧
        ∀ env, eval env e = .ok (.int (-9223372036854775807)) := by
  have hdisplay : (Value.int (-9223372036854775807)).display = "-9223372036854775807" := by
    decide +kernel
  have hread := (displayed_reads_back (v := .int (-9223372036854775807)) (by decide)).1 (by decide)
  exact ⟨by decide, by decide, hdisplay ▸ hread⟩

/-- It is not so that every integer can be read back. -/
theorem least_not_read_back :
    ¬ ∀ v : Value, v.kind ∈ [Kind.none, .bool, .int] →
      ∃ e, programOfSource v.display.toList = .ok [⟨1, .expr e⟩] ∧
        ∀ env, eval env e = .ok v := by
  intro hall
  obtain ⟨e, hread, -⟩ := hall (.int Int64.minValue) (by decide)
  cases programOfSource_least.symm.trans hread

end Script
end CodeSessions
