import CodeSessions.Proofs.Script.Source
import CodeSessions.Script.Run
import Mathlib.Data.String.Basic

/-!
# Literals — where the texts of a program come from

- `Expr.Within e root`: the expression `e` is `root`, or stands inside of it,
- `Stmt.exprs`: the outermost expressions of a statement,
- `Located.Mentions`: a statement contains an expression.

A literal is a token of its line (`LineDerives.literal_mem`), and a text among the tokens is written
out in the source.  So no program mentions a text that is longer than its source
(`utf8ByteSize_le_of_mentions`).
-/

namespace CodeSessions
namespace Script

/-! ## Parts of expressions -/

inductive Expr.Within (e : Expr) : Expr → Prop
  | self : Within e e
  | operand {op : UnaryOp} {x : Expr} : Within e x → Within e (.unary op x)
  | left {op : BinaryOp} {l r : Expr} : Within e l → Within e (.binary op l r)
  | right {op : BinaryOp} {l r : Expr} : Within e r → Within e (.binary op l r)
  | first {x : Expr} {links : List (BinaryOp × Expr)} : Within e x → Within e (.chain x links)
  | link {x y : Expr} {op : BinaryOp} {links : List (BinaryOp × Expr)} :
      (op, y) ∈ links → Within e y → Within e (.chain x links)

theorem Expr.Within.trans {a b c : Expr} (hab : a.Within b) (hbc : b.Within c) : a.Within c := by
  induction hbc with
  | self => exact hab
  | operand _ ih => exact .operand ih
  | left _ ih => exact .left ih
  | right _ ih => exact .right ih
  | first _ ih => exact .first ih
  | link hmem _ ih => exact .link hmem ih

def Stmt.exprs : Stmt → List Expr
  | .assign _ value => [value]
  | .print items _ => items
  | .expr value => [value]

def Located.Mentions (l : Located) (e : Expr) : Prop :=
  ∃ root ∈ l.statement.exprs, e.Within root

theorem Expr.Within.of_foldLeft {value : Value} {first : Expr} {steps : List (BinaryOp × Expr)}
    (h : Within (.literal value) (first.foldLeft steps)) :
    Within (.literal value) first ∨ ∃ step ∈ steps, Within (.literal value) step.2 := by
  induction steps generalizing first with
  | nil => exact .inl h
  | cons step steps ih =>
      rcases ih h with h | ⟨step', hmem, h⟩
      · cases h with
        | left h => exact .inl h
        | right h => exact .inr ⟨step, List.mem_cons_self, h⟩
      · exact .inr ⟨step', List.mem_cons_of_mem step hmem, h⟩

/-- A literal inside of joined operands stands inside of one of them. -/
theorem Expr.Within.of_join {value : Value} {first : Expr} {l : Level}
    {steps : List (BinaryOp × Expr)} (h : Within (.literal value) (l.join first steps)) :
    Within (.literal value) first ∨ ∃ step ∈ steps, Within (.literal value) step.2 := by
  rcases l.join_cases first steps with ⟨-, hjoin⟩ | hjoin
  · rw [hjoin] at h
    cases h with
    | first h => exact .inl h
    | link hmem h => exact .inr ⟨_, hmem, h⟩
  · exact (hjoin ▸ h).of_foldLeft

/-! ## Literals are tokens -/

mutual

theorem Derives.literal_mem {l : Level} {ts : List Token} {e : Expr} {depth count : Nat}
    {value : Value} : Derives l ts e depth count → Expr.Within (.literal value) e →
      Token.literal value ∈ ts
  | .literal _, h => by
      cases h
      exact List.mem_cons_self
  | .name _, h => nomatch h
  | .parens hderives, h => by
      have hmem := hderives.literal_mem h
      simp [hmem]
  | .unsigned hderives, h => hderives.literal_mem h
  | .affirmed hderives, h => hderives.literal_mem h
  | .negate hderives, .operand h => List.mem_cons_of_mem _ (hderives.literal_mem h)
  | .plus hderives, .operand h => List.mem_cons_of_mem _ (hderives.literal_mem h)
  | .not hderives, .operand h => List.mem_cons_of_mem _ (hderives.literal_mem h)
  | .joined _ hfirst hsteps, h => by
      rcases h.of_join with h | ⟨step, hmem, h⟩
      · exact List.mem_append_left _ (hfirst.literal_mem h)
      · exact List.mem_append_right _ (hsteps.literal_mem hmem h)

theorem Steps.literal_mem {l : Level} {us : List Token} {steps : List (BinaryOp × Expr)}
    {depth count : Nat} {step : BinaryOp × Expr} {value : Value} :
    Steps l us steps depth count → step ∈ steps → Expr.Within (.literal value) step.2 →
      Token.literal value ∈ us
  | .nil _, hmem, _ => nomatch hmem
  | .cons _ _ hright hsteps, hmem, h => by
      rcases List.mem_cons.1 hmem with rfl | hmem
      · exact List.mem_append_left _ (List.mem_cons_of_mem _ (hright.literal_mem h))
      · exact List.mem_append_right _ (hsteps.literal_mem hmem h)

end

/-- Phrases with separators have their tokens from one of them. -/
theorem Separated.mem {α : Type} {separator t : Token} {P : List Token → α → Nat → Nat → Prop}
    {ts : List Token} {as : List α} {a : α} {depth count : Nat}
    (h : Separated separator P ts as depth count) (ha : a ∈ as)
    (hP : ∀ us depth count, P us a depth count → t ∈ us) : t ∈ ts := by
  induction h with
  | one h =>
      cases List.mem_singleton.1 ha
      exact hP _ _ _ h
  | cons h _ ih =>
      rcases List.mem_cons.1 ha with rfl | ha
      · exact List.mem_append_left _ (hP _ _ _ h)
      · exact List.mem_append_right _ (List.mem_cons_of_mem _ (ih ha))

theorem StmtDerives.literal_mem {ts : List Token} {s : Stmt} {depth count : Nat} {root : Expr}
    {value : Value} (h : StmtDerives ts s depth count) (hroot : root ∈ s.exprs)
    (hvalue : Expr.Within (.literal value) root) : Token.literal value ∈ ts := by
  cases h with
  | printNothing => cases hroot
  | print h =>
      have hmem := h.mem hroot fun _ _ _ hderives => hderives.literal_mem hvalue
      exact List.mem_cons_of_mem _ hmem
  | printOpen h =>
      have hmem := h.mem hroot fun _ _ _ hderives => hderives.literal_mem hvalue
      exact List.mem_cons_of_mem _ (List.mem_append_left _ hmem)
  | assign target h =>
      cases List.mem_singleton.1 hroot
      exact List.mem_cons_of_mem _ (List.mem_cons_of_mem _ (h.literal_mem hvalue))
  | expr h =>
      cases List.mem_singleton.1 hroot
      exact h.literal_mem hvalue

theorem LineDerives.literal_mem {ts : List Token} {ss : List Stmt} {depth count : Nat} {s : Stmt}
    {root : Expr} {value : Value} (h : LineDerives ts ss depth count) (hs : s ∈ ss)
    (hroot : root ∈ s.exprs) (hvalue : Expr.Within (.literal value) root) :
    Token.literal value ∈ ts := by
  have hstmt : ∀ us depth count, StmtDerives us s depth count → Token.literal value ∈ us :=
    fun _ _ _ h => h.literal_mem hroot hvalue
  cases h with
  | empty => cases hs
  | semicolon => cases hs
  | statements h => exact h.mem hs hstmt
  | terminated h => exact List.mem_append_left _ (h.mem hs hstmt)

/-! ## Texts are written out -/

theorem Spells.text_sublist {line : List Char} {ts : List Token} {s : String}
    (h : Spells line ts) (hs : Token.literal (.text s) ∈ ts) : s.toList.Sublist line := by
  induction h with
  | blank _ => cases hs
  | comment _ _ => cases hs
  | @token bs w rest t ts _ hlexeme _ ih =>
      refine .trans ?_ (List.sublist_append_right bs (w ++ rest))
      rcases List.mem_cons.1 hs with rfl | hs
      · refine .trans ?_ (List.sublist_append_left w rest)
        cases hlexeme with
        | word hword => simp [reserved] at hword
        | symbol hsymbol => simp [symbols] at hsymbol
        | text _ _ => simp
      · exact (ih hs).trans (List.sublist_append_right w rest)

theorem SplitsLines.sublist {source line : List Char} {lines : List (List Char)}
    (h : SplitsLines source lines) (hline : line ∈ lines) : line.Sublist source := by
  induction h with
  | nil => cases hline
  | last _ _ =>
      cases List.mem_singleton.1 hline
      exact .refl line
  | lineFeed _ _ _ ih =>
      rcases List.mem_cons.1 hline with rfl | hline
      · exact List.sublist_append_left _ _
      · exact ((ih hline).cons _).trans (List.sublist_append_right _ _)
  | carriageReturn _ _ ih =>
      rcases List.mem_cons.1 hline with rfl | hline
      · exact List.sublist_append_left _ _
      · exact (((ih hline).cons _).cons _).trans (List.sublist_append_right _ _)

theorem LinesDerive.text_sublist {lines : List (List Char)} {p : Program} {n : Nat} {l : Located}
    {s : String} (h : LinesDerive n lines p) (hl : l ∈ p) (hs : l.Mentions (.literal (.text s))) :
    ∃ line ∈ lines, s.toList.Sublist line := by
  induction h with
  | nil n => cases hl
  | cons hspells hderives _ _ _ ih =>
      rcases List.mem_append.1 hl with hl | hl
      · rcases List.mem_map.1 hl with ⟨statement, hstatement, rfl⟩
        rcases hs with ⟨root, hroot, hwithin⟩
        have hmem := hderives.literal_mem hstatement hroot hwithin
        exact ⟨_, List.mem_cons_self, hspells.text_sublist hmem⟩
      · rcases ih hl with ⟨line, hline, hsublist⟩
        exact ⟨line, List.mem_cons_of_mem _ hline, hsublist⟩

/-- A text that a program mentions is not longer than the source of the program. -/
theorem utf8ByteSize_le_of_mentions {source s : String} {p : Program} {l : Located}
    (hp : programOfSource source.toList = .ok p) (hl : l ∈ p)
    (hs : l.Mentions (.literal (.text s))) : s.utf8ByteSize ≤ source.utf8ByteSize := by
  rcases programFrom_eq_ok_iff.1 hp with ⟨q, rfl, hderives⟩
  rcases hderives.text_sublist hl hs with ⟨line, hline, hsublist⟩
  have hsource := hsublist.trans ((splitsLines_lines source.toList).sublist hline)
  have hle := String.utf8Len_le_of_sublist hsource
  rwa [String.utf8Len_toList, String.utf8Len_toList] at hle

end Script
end CodeSessions
