import CodeSessions.Proofs.Script.Source

/-!
# Limits — no limit is reported without cause

A reader that looks for an operand in vain has paid for what it has read, and keeps the account as
it is.  This file shows that it pays once for each token all the same: what is charged while a line
is read never exceeds the operators of the line, and a level of nesting is opened by a token of its
own.

- `operators` and `openers` count the tokens in question,
- `Warranted` says that a result of a reader is covered by the tokens; `Warrants.reader` and
  `levels_warrant` take it from level to level, from the inside out,
- `Billed` is the same for readers of whole token lists,
- `limits_reported` puts this together with the grammar.

A reader that stops at an operator without an operand is `stuck`: it has looked at all tokens, and
no outer level will look at them again.
-/

namespace CodeSessions
namespace Script

/-! ## Tokens that count -/

/-- Whether a token is an operator. -/
def Token.isOperator : Token → Bool
  | op _ | not => true
  | _ => false

/-- Whether a token can open a level of nesting. -/
def Token.isOpener : Token → Bool
  | opening | not | op .add | op .subtract => true
  | _ => false

def operators (ts : List Token) : Nat :=
  ts.countP Token.isOperator

def openers (ts : List Token) : Nat :=
  ts.countP Token.isOpener

@[simp] theorem operators_append (ts us : List Token) :
    operators (ts ++ us) = operators ts + operators us :=
  List.countP_append

@[simp] theorem openers_append (ts us : List Token) :
    openers (ts ++ us) = openers ts + openers us :=
  List.countP_append

theorem operators_cons {t : Token} (ht : t.isOperator = true) (ts : List Token) :
    operators (t :: ts) = operators ts + 1 :=
  List.countP_cons_of_pos ht

theorem operators_le_cons (t : Token) (ts : List Token) : operators ts ≤ operators (t :: ts) :=
  (List.sublist_cons_self t ts).countP_le

theorem openers_cons {t : Token} (ht : t.isOpener = true) (ts : List Token) :
    openers (t :: ts) = openers ts + 1 :=
  List.countP_cons_of_pos ht

theorem openers_le_cons (t : Token) (ts : List Token) : openers ts ≤ openers (t :: ts) :=
  (List.sublist_cons_self t ts).countP_le

/-! ## Readers -/

/-- The tokens cover what a reader of level `l` with `room` for that many levels makes of them: a
limit that it reports, or what it has charged. -/
inductive Warranted (l : Level) (room : Nat) (tokens : List Token) (budget : Nat) :
    Except Limit (Option (Expr × List Token) × Nat) → Prop
  | tooDeep (h : room ≤ openers tokens) : Warranted l room tokens budget (.error .nesting)
  | tooMany (h : budget < operators tokens) : Warranted l room tokens budget (.error .operators)
  | nothing {left : Nat} (h : budget ≤ left + operators tokens) :
      Warranted l room tokens budget (.ok (none, left))
  | found (ts : List Token) {rest : List Token} {e : Expr} {left : Nat}
      (htokens : tokens = ts ++ rest) (h : budget ≤ left + operators ts) :
      Warranted l room tokens budget (.ok (some (e, rest), left))
  /-- The reader has looked behind an operator that it left standing. -/
  | stuck (ts : List Token) {rest : List Token} {e : Expr} {left : Nat}
      (htokens : tokens = ts ++ rest) (hstuck : ¬ Stops l rest)
      (h : budget ≤ left + operators tokens) :
      Warranted l room tokens budget (.ok (some (e, rest), left))

def Warrants (l : Level) (room : Nat) (reader : Reader) : Prop :=
  ∀ (tokens : List Token) (budget : Nat), Warranted l room tokens budget (reader tokens budget)

namespace Warranted

variable {l k : Level} {room budget paid : Nat} {tokens after : List Token}
  {r : Except Limit (Option (Expr × List Token) × Nat)}

/-- Tokens in front of those that a reader sees, and what has been charged for them. -/
theorem prepend (us : List Token) (htokens : tokens = us ++ after)
    (hpaid : budget ≤ paid + operators us) (h : Warranted l room after paid r) :
    Warranted l room tokens budget r := by
  subst htokens
  have hoperators := operators_append us after
  have hopeners := openers_append us after
  cases h with
  | tooDeep h => exact .tooDeep (by omega)
  | tooMany h => exact .tooMany (by omega)
  | nothing h => exact .nothing (by omega)
  | @found ts rest e left hafter h =>
      have hboth := operators_append us ts
      exact .found (us ++ ts) (by simp [hafter]) (by omega)
  | @stuck ts rest e left hafter hstuck h =>
      exact .stuck (us ++ ts) (by simp [hafter]) hstuck (by omega)

/-- A level whose expressions are also expressions of a looser level. -/
theorem lift (hle : l.rank ≤ k.rank) (h : Warranted k room tokens budget r) :
    Warranted l room tokens budget r := by
  cases h with
  | tooDeep h => exact .tooDeep h
  | tooMany h => exact .tooMany h
  | nothing h => exact .nothing h
  | found ts htokens h => exact .found ts htokens h
  | stuck ts htokens hstuck h => exact .stuck ts htokens (fun hrest => hstuck (hrest.mono hle)) h

end Warranted

/-- Where the operand is stuck, the loop of the level does not go on either. -/
theorem not_takes_of_stuck {l k : Level} {rest : List Token} (hk : l.operand? = some k)
    (hstuck : ¬ Stops k rest) : ∀ op us, rest = .op op :: us → l.takes op = false := by
  rintro op us rfl
  refine beq_false_of_ne ?_
  rintro rfl
  -- an operator of this level binds looser than the operands, so that they stop before it
  refine hstuck fun op' us' heq => ?_
  cases heq
  exact Level.rank_lt_of_operand? hk

section Joined

variable {l k : Level} {room : Nat} {operand : Reader}

/-- The loop of a level, with the tree that it leads to. -/
theorem stepsFrom_warranted (hk : l.operand? = some k) (hoperand : Warrants k room operand)
    (tree : List (BinaryOp × Expr) → Expr) (turns : Nat) (done : List (BinaryOp × Expr))
    (tokens : List Token) (budget : Nat) :
    Warranted l room tokens budget
      (stepsFrom l.takes operand turns done tokens budget >>= fun r =>
        .ok (some (tree r.1.1, r.1.2), r.2)) := by
  have hstop : ∀ {turns done tokens budget}, (∀ op us, tokens = .op op :: us → l.takes op = false) →
      Warranted l room tokens budget
        (stepsFrom l.takes operand turns done tokens budget >>= fun r =>
          .ok (some (tree r.1.1, r.1.2), r.2)) := by
    intro turns done tokens budget htokens
    rw [stepsFrom_of_not_takes htokens]
    exact .found [] rfl (Nat.le_add_right _ _)
  induction turns generalizing done tokens budget with
  | zero => exact .found [] rfl (Nat.le_add_right _ _)
  | succ turns ih =>
      by_cases htakes : ∃ op after, tokens = .op op :: after ∧ l.takes op = true
      · rcases htakes with ⟨op, after, rfl, hop⟩
        have hoperators : operators (.op op :: after) = operators after + 1 :=
          operators_cons rfl after
        have hopeners := openers_le_cons (.op op) after
        simp only [stepsFrom, hop, if_true]
        have hright := hoperand after budget
        generalize operand after budget = result at hright
        cases hright with
        | tooDeep h => exact .tooDeep (Nat.le_trans h hopeners)
        | tooMany h => exact .tooMany (by omega)
        | @nothing left h =>
            -- the operator is left standing, and nobody will look behind it again
            refine .stuck [] rfl (fun hrest => ?_) (by omega)
            have hlt := hrest op after rfl
            rw [eq_of_beq hop] at hlt
            exact Nat.lt_irrefl _ hlt
        | @found ts rest e left hafter h =>
            subst hafter
            have hboth := operators_append ts rest
            cases left with
            | zero => exact .tooMany (by omega)
            | succ left =>
                have hpaid : operators (.op op :: ts) = operators ts + 1 := operators_cons rfl ts
                exact (ih _ rest left).prepend (.op op :: ts) rfl (by omega)
        | @stuck ts rest e left hafter hstuck h =>
            cases left with
            | zero => exact .tooMany (by omega)
            | succ left =>
                change Warranted _ _ _ _ (stepsFrom l.takes operand turns _ rest left >>= _)
                rw [stepsFrom_of_not_takes (not_takes_of_stuck hk hstuck)]
                refine .stuck (.op op :: ts) (by simp [hafter]) (fun hrest => ?_) (by omega)
                exact hstuck (hrest.mono (Nat.le_of_lt (Level.rank_lt_of_operand? hk)))
      · refine hstop fun op us htokens => ?_
        refine Bool.eq_false_iff.mpr fun hop => htakes ⟨op, us, htokens, hop⟩

theorem joined_warrants (hk : l.operand? = some k) (hoperand : Warrants k room operand) :
    Warrants l room (joined l.takes l.join operand) := by
  intro tokens budget
  have hfirst := hoperand tokens budget
  have hle := Nat.le_of_lt (Level.rank_lt_of_operand? hk)
  simp only [joined]
  generalize operand tokens budget = result at hfirst
  cases hfirst with
  | tooDeep h => exact .tooDeep h
  | tooMany h => exact .tooMany h
  | nothing h => exact .nothing h
  | @found ts rest e left htokens h =>
      exact (stepsFrom_warranted hk hoperand (l.join e) _ [] rest left).prepend ts htokens h
  | @stuck ts rest e left htokens hstuck h =>
      change Warranted _ _ _ _ (stepsFrom l.takes operand (left + 1) [] rest left >>= _)
      rw [stepsFrom_of_not_takes (not_takes_of_stuck hk hstuck)]
      exact .stuck ts htokens (fun hrest => hstuck (hrest.mono hle)) h

end Joined

/-- The reader of a level with binary operators is warranted if that of its operands is. -/
theorem Warrants.reader {l k : Level} {room : Nat} {inner : Levels} (hk : l.operand? = some k)
    (hoperand : Warrants k room (k.reader inner)) : Warrants l room (l.reader inner) := by
  simpa only [Level.reader_eq_joined hk] using joined_warrants hk hoperand

/-- An operator with one operand opens a level, and is paid for when the operand has been read. -/
theorem Warrants.unary {l : Level} {room : Nat} {operand : Reader} {op : UnaryOp} {t : Token}
    (hoperand : Warrants l room operand) (hoperator : t.isOperator = true)
    (hopener : t.isOpener = true) (tokens : List Token) (budget : Nat) :
    Warranted l (room + 1) (t :: tokens) budget (Script.unary op operand tokens budget) := by
  have hoperators := operators_cons hoperator tokens
  have hopeners := openers_cons hopener tokens
  have hread := hoperand tokens budget
  simp only [Script.unary]
  generalize operand tokens budget = result at hread
  cases hread with
  | tooDeep h => exact .tooDeep (by omega)
  | tooMany h => exact .tooMany (by omega)
  | nothing h => exact .nothing (by omega)
  | @found ts rest e left htokens h =>
      subst htokens
      have hboth := operators_append ts rest
      have hpaid := operators_cons hoperator ts
      cases left with
      | zero => exact .tooMany (by omega)
      | succ left => exact .found (t :: ts) rfl (by omega)
  | @stuck ts rest e left htokens hstuck h =>
      cases left with
      | zero => exact .tooMany (by omega)
      | succ left => exact .stuck (t :: ts) (by simp [htokens]) hstuck (by omega)

/-! ## Levels -/

/-- The readers of the next level of nesting are warranted, with `room` for that many levels. -/
structure Levels.Warrant (room : Nat) (inner : Levels) : Prop where
  expression : Warrants .disjunction room inner.expression
  negation : Warrants .negation room inner.negation
  signed : Warrants .signed room inner.signed

namespace Warrants

variable {room : Nat} {inner : Levels}

theorem primary (h : inner.Warrant room) : Warrants .primary (room + 1) (Script.primary inner) := by
  intro tokens budget
  cases tokens with
  | nil => exact .nothing (Nat.le_add_right _ _)
  | cons t rest =>
      cases t with
      | literal value => exact .found [.literal value] rfl (Nat.le_add_right _ _)
      | name name => exact .found [.name name] rfl (Nat.le_add_right _ _)
      | opening =>
          have hoperators := operators_le_cons .opening rest
          have hopeners : openers (.opening :: rest) = openers rest + 1 := openers_cons rfl rest
          have hread := h.expression rest budget
          simp only [Script.primary]
          generalize inner.expression rest budget = result at hread
          cases hread with
          | tooDeep h => exact .tooDeep (by omega)
          | tooMany h => exact .tooMany (by omega)
          | nothing h => exact .nothing (by omega)
          | @found ts after e left htokens h =>
              subst htokens
              have hboth := operators_append ts after
              -- the parenthesis is closed behind the expression, or there is none
              rcases after with _ | ⟨u, after⟩
              · exact .nothing (by omega)
              · by_cases hu : u = .closing
                · subst hu
                  have hparens : operators (.opening :: ts ++ [.closing]) = operators ts := by
                    simp [operators, Token.isOperator]
                  exact .found (.opening :: ts ++ [.closing]) (by simp) (by omega)
                · have hnothing : Warranted .primary (room + 1) (.opening :: (ts ++ u :: after))
                      budget (.ok (none, left)) := .nothing (by omega)
                  cases u with
                  | closing => exact absurd rfl hu
                  | _ => exact hnothing
          | @stuck ts after e left htokens hstuck h =>
              have hnothing : Warranted .primary (room + 1) (.opening :: rest) budget
                  (.ok (none, left)) := .nothing (by omega)
              rcases after with _ | ⟨u, after⟩
              · exact hnothing
              · cases u with
                | closing =>
                    refine absurd (fun op us heq => ?_) hstuck
                    cases heq
                | _ => exact hnothing
      | _ => exact .nothing (Nat.le_add_right _ _)

theorem signed (h : inner.Warrant room) : Warrants .signed (room + 1) (Script.signed inner) := by
  intro tokens budget
  simp only [Script.signed]
  split
  · split
    · rename_i hsign
      obtain ⟨rfl, rfl⟩ | ⟨rfl, rfl⟩ := sign_cases hsign
      · exact h.signed.unary rfl rfl _ budget
      · exact h.signed.unary rfl rfl _ budget
    · exact .nothing (Nat.le_add_right _ _)
  · exact (primary h tokens budget).lift (by decide)

theorem comparison (h : inner.Warrant room) :
    Warrants .comparison (room + 1) (Level.comparison.reader inner) := by
  have hproduct : Warrants .product (room + 1) (Level.product.reader inner) :=
    Warrants.reader (k := .signed) rfl (signed h)
  have hsum : Warrants .sum (room + 1) (Level.sum.reader inner) :=
    Warrants.reader (k := .product) rfl hproduct
  exact Warrants.reader (k := .sum) rfl hsum

theorem negation (h : inner.Warrant room) :
    Warrants .negation (room + 1) (Script.negation inner) := by
  intro tokens budget
  simp only [Script.negation]
  split
  · exact h.negation.unary rfl rfl _ budget
  · exact (comparison h tokens budget).lift (by decide)

theorem disjunction (h : inner.Warrant room) :
    Warrants .disjunction (room + 1) (Script.disjunction inner) := by
  have hconjunction : Warrants .conjunction (room + 1) (Level.conjunction.reader inner) :=
    Warrants.reader (k := .negation) rfl (negation h)
  exact Warrants.reader (l := .disjunction) (k := .conjunction) rfl hconjunction

end Warrants

theorem levels_warrant (room : Nat) : (levels room).Warrant room := by
  induction room with
  | zero =>
      -- a reader without room opens nothing, and needs nothing for its complaint
      refine ⟨?_, ?_, ?_⟩ <;> exact fun tokens _ => .tooDeep (Nat.zero_le (openers tokens))
  | succ room ih => exact ⟨.disjunction ih, .negation ih, .signed ih⟩

/-! ## Whole token lists -/

/-- The tokens cover what a reader of a whole token list makes of them. -/
inductive Billed {α : Type} (ts : List Token) (budget : Nat) : Except Complaint (α × Nat) → Prop
  | read {a : α} {left : Nat} (h : budget ≤ left + operators ts) : Billed ts budget (.ok (a, left))
  | invalid : Billed ts budget (.error .invalid)
  | tooDeep (h : maxNesting < openers ts) : Billed ts budget (.error (.exceeded .nesting))
  | tooMany (h : budget < operators ts) : Billed ts budget (.error (.exceeded .operators))

namespace Billed

variable {α β : Type} {ts us : List Token} {budget : Nat}

theorem bind {r : Except Complaint (α × Nat)} {f : α × Nat → Except Complaint (β × Nat)}
    (h : Billed ts budget r) (hf : ∀ a left, Billed us left (f (a, left))) :
    Billed (ts ++ us) budget (r >>= f) := by
  have hoperators := operators_append ts us
  have hopeners := openers_append ts us
  cases h with
  | @read a left h =>
      change Billed _ _ (f (a, left))
      have hrest := hf a left
      generalize f (a, left) = result at hrest
      cases hrest with
      | read h' => exact .read (by omega)
      | invalid => exact .invalid
      | tooDeep h' => exact .tooDeep (by omega)
      | tooMany h' => exact .tooMany (by omega)
  | invalid => exact .invalid
  | tooDeep h => exact .tooDeep (by omega)
  | tooMany h => exact .tooMany (by omega)

theorem map {r : Except Complaint (α × Nat)} (h : Billed ts budget r) (f : α → β) :
    Billed ts budget (r >>= fun x => .ok (f x.1, x.2)) := by
  have hboth : Billed (ts ++ []) budget (r >>= fun x => .ok (f x.1, x.2)) :=
    h.bind fun _ _ => .read (Nat.le_add_right _ _)
  simpa only [List.append_nil] using hboth

/-- Tokens that are not read do no harm. -/
theorem mono {r : Except Complaint (α × Nat)} (h : Billed ts budget r) (hsub : ts.Sublist us) :
    Billed us budget r := by
  have hoperators : operators ts ≤ operators us := hsub.countP_le
  have hopeners : openers ts ≤ openers us := hsub.countP_le
  cases h with
  | read h => exact .read (by omega)
  | invalid => exact .invalid
  | tooDeep h => exact .tooDeep (by omega)
  | tooMany h => exact .tooMany (by omega)

end Billed

theorem readExpr_billed (ts : List Token) (budget : Nat) :
    Billed ts budget (readExpr ts budget) := by
  have hread := (levels_warrant (maxNesting + 1)).expression ts budget
  simp only [readExpr]
  generalize (levels (maxNesting + 1)).expression ts budget = result at hread
  cases hread with
  | tooDeep h => exact .tooDeep h
  | tooMany h => exact .tooMany h
  | nothing h => exact .invalid
  | @found us rest e left htokens h =>
      cases rest with
      | nil => exact .read (by simpa [htokens] using h)
      | cons t rest => exact .invalid
  | @stuck us rest e left htokens hstuck h =>
      cases rest with
      | nil => exact .read h
      | cons t rest => exact .invalid

/-- The parts between separators make up the tokens, but for the separators. -/
theorem flatten_splitAt_sublist (separator : Token) (ts : List Token) :
    (splitAt separator ts).flatten.Sublist ts := by
  induction ts using split_induction separator with
  | last ts hts => simp [splitAt_of_not_mem hts]
  | part ts us hts ih =>
      simp only [splitAt_append hts, List.flatten_cons]
      exact (List.Sublist.refl ts).append (ih.cons separator)

theorem partsFrom_billed {α : Type} {read : List Token → Nat → Except Complaint (α × Nat)}
    (hread : ∀ ts budget, Billed ts budget (read ts budget)) (parts : List (List Token))
    (done : List α) (budget : Nat) :
    Billed parts.flatten budget (partsFrom read done parts budget) := by
  induction parts generalizing done budget with
  | nil => exact .read (Nat.le_add_right _ _)
  | cons part rest ih =>
      by_cases hpart : part = [] ∧ rest = []
      · rcases hpart with ⟨rfl, rfl⟩
        exact .read (Nat.le_add_right _ _)
      · simp only [partsFrom_cons hpart, List.flatten_cons]
        exact (hread part budget).bind fun a left => ih (a :: done) left

theorem sequence_billed {α : Type} {read : List Token → Nat → Except Complaint (α × Nat)}
    (hread : ∀ ts budget, Billed ts budget (read ts budget)) (separator : Token) (ts : List Token)
    (budget : Nat) : Billed ts budget (partsFrom read [] (splitAt separator ts) budget) :=
  (partsFrom_billed hread _ [] budget).mono (flatten_splitAt_sublist separator ts)

theorem readStmt_billed (ts : List Token) (budget : Nat) :
    Billed ts budget (readStmt ts budget) := by
  simp only [readStmt]
  split
  · rename_i rest
    have hitems := sequence_billed readExpr_billed .comma rest budget
    have hstmt := hitems.map fun r : List Expr × Bool => Stmt.print r.1 (r.1.isEmpty || !r.2)
    exact hstmt.mono (List.sublist_cons_self _ _)
  · rename_i target rest
    have hstmt := (readExpr_billed rest budget).map (Stmt.assign target)
    exact hstmt.mono (((List.Sublist.refl rest).cons _).cons _)
  · exact (readExpr_billed _ budget).map Stmt.expr

/-- A limit is reported for a line only if its tokens exceed it. -/
theorem readLine_error {line : List Char} {limit : Limit}
    (h : readLine line = .error (.exceeded limit)) :
    match limit with
    | .nesting => maxNesting < openers (Token.ofLine line)
    | .operators => maxOperators < operators (Token.ofLine line) := by
  have hbilled := sequence_billed readStmt_billed .semicolon (Token.ofLine line) maxOperators
  by_cases hline : Token.ofLine line = [.semicolon]
  · simp only [readLine, hline] at h
    cases h
  · simp only [readLine_of_ne hline] at h
    generalize partsFrom readStmt [] (splitAt .semicolon (Token.ofLine line)) maxOperators = result
      at hbilled h
    cases hbilled with
    | read _ => cases h
    | invalid => cases h
    | tooDeep hdeep =>
        cases h
        exact hdeep
    | tooMany hmany =>
        cases h
        exact hmany

/-! ## Operators of a derivation -/

mutual

/-- The count of a derivation is the number of operators among its tokens. -/
theorem Derives.count_eq {l : Level} {ts : List Token} {e : Expr} {depth count : Nat} :
    Derives l ts e depth count → count = operators ts
  | .literal _ | .name _ => rfl
  | .parens h => by simp [operators, Token.isOperator, h.count_eq]
  | .unsigned h | .affirmed h => h.count_eq
  | .negate h | .plus h | .not h => by rw [operators_cons rfl, h.count_eq]
  | .joined _ h hsteps => by simp [h.count_eq, hsteps.count_eq]

theorem Steps.count_eq {l : Level} {ts : List Token} {steps : List (BinaryOp × Expr)}
    {depth count : Nat} : Steps l ts steps depth count → count = operators ts
  | .nil _ => rfl
  | .cons _ _ h hsteps => by
      rw [List.cons_append, operators_cons rfl, operators_append, h.count_eq, hsteps.count_eq]

end

theorem Separated.count_eq {α : Type} {separator : Token} {P : List Token → α → Nat → Nat → Prop}
    (hseparator : separator.isOperator = false)
    (hP : ∀ {ts a depth count}, P ts a depth count → count = operators ts) {ts : List Token}
    {as : List α} {depth count : Nat} (h : Separated separator P ts as depth count) :
    count = operators ts := by
  induction h with
  | one h => exact hP h
  | cons h _ ih => simp [operators, hseparator, hP h, ih]

theorem StmtDerives.count_eq {ts : List Token} {s : Stmt} {depth count : Nat}
    (h : StmtDerives ts s depth count) : count = operators ts := by
  have hitems : ∀ {ts items depth count}, ItemsDerive ts items depth count →
      count = operators ts := fun h => h.count_eq rfl Derives.count_eq
  cases h with
  | printNothing => rfl
  | print h => simp [operators, Token.isOperator, hitems h]
  | printOpen h => simp [operators, Token.isOperator, hitems h]
  | assign target h => simp [operators, Token.isOperator, h.count_eq]
  | expr h => exact h.count_eq

theorem LineDerives.count_eq {ts : List Token} {ss : List Stmt} {depth count : Nat}
    (h : LineDerives ts ss depth count) : count = operators ts := by
  have hstmts : ∀ {ts ss depth count}, Separated .semicolon StmtDerives ts ss depth count →
      count = operators ts := fun h => h.count_eq rfl StmtDerives.count_eq
  cases h with
  | empty => rfl
  | semicolon => rfl
  | statements h => exact hstmts h
  | terminated h => simp [operators, Token.isOperator, hstmts h]

/-! ## Tokens and text -/

/-- What follows a lexeme may be cut short. -/
theorem Lexeme.of_append {w front back : List Char} {t : Token} (h : Lexeme w (front ++ back) t) :
    Lexeme w front t := by
  have hfront : ∀ {p : Char → Bool}, Apart p (front ++ back) → Apart p front := by
    rintro p hapart c cs rfl
    exact hapart c (cs ++ back) rfl
  cases h with
  | word hword hend => exact .word hword (hfront hend)
  | name hword hfree hend => exact .name hword hfree (hfront hend)
  | symbol hsymbol => exact .symbol hsymbol
  | assign hend => exact .assign (hfront hend)
  | integer hne hdigits hn => exact .integer hne hdigits hn
  | fraction hwhole hdecimals hdigits => exact .fraction hwhole hdecimals hdigits
  | text hquote hbody => exact .text hquote hbody

/-- Each token of a line stands on characters of its own, but for a stray at the end. -/
theorem exists_spells_ofLine (line : List Char) :
    ∃ front back ts, line = front ++ back ∧ Spells front ts ∧
      (Token.ofLine line = ts ∨ Token.ofLine line = ts ++ [.stray]) := by
  have hnil : Blank [] := by
    intro c hc
    cases hc
  induction line using scan_induction with
  | nil => exact ⟨[], [], [], rfl, .blank hnil, .inl ofLine_nil⟩
  | blank c s hc ih =>
      rcases ih with ⟨front, back, ts, rfl, hspells, htokens⟩
      exact ⟨c :: front, back, ts, rfl, hspells.cons_blank hc, by simpa only [ofLine_blank hc]⟩
  | comment s => exact ⟨'#' :: s, [], [], by simp, .comment s hnil, .inl (scan_comment [] s)⟩
  | stray c s hc hhash hread =>
      refine ⟨[], c :: s, [], rfl, .blank hnil, .inr ?_⟩
      simp [Token.ofLine, scan_stray hc hhash hread]
  | token c s t after hc hhash hread ih =>
      rcases ih with ⟨front, back, ts, rfl, hspells, htokens⟩
      rcases read_sound hread with ⟨w, hw, hlexeme⟩
      refine ⟨w ++ front, back, t :: ts, by simp [hw], ?_, ?_⟩
      · simpa using Spells.token hnil hlexeme.of_append hspells
      · rcases htokens with htokens | htokens
        · exact .inl (by rw [ofLine_token hc hhash hread, htokens])
        · exact .inr (by rw [ofLine_token hc hhash hread, htokens, List.cons_append])

/-! ## Reported lines -/

/-- A report is about the line that it names, or a later one. -/
theorem le_line_of_programFrom {lines : List (List Char)} {done : Program} {n : Nat}
    {fault : SyntaxFault} (h : programFrom done n lines = .error fault) : n ≤ fault.line := by
  obtain ⟨before, line, after, -, hnumber, -⟩ := programFrom_eq_error_iff.1 h
  exact hnumber ▸ Nat.le_add_right n before.length

/-- Lines that are read leave their statements, and the rest is read as if it stood there alone. -/
theorem programFrom_append {before : List (List Char)} {p : Program} {n : Nat}
    (h : LinesDerive n before p) (done : Program) (rest : List (List Char)) :
    programFrom done n (before ++ rest) =
      programFrom (p.reverse ++ done) (n + before.length) rest := by
  have hbefore : programFrom done n before = .ok (done.reverse ++ p) :=
    programFrom_eq_ok_iff.2 ⟨p, rfl, h⟩
  rw [programFrom_append_eq, hbefore, Except.bind, List.reverse_append, List.reverse_reverse]

/-- Of lines that are read, the next one is reported just for its own fault. -/
theorem programOfSource_eq_error_iff {source : List Char} {before after : List (List Char)}
    {line : List Char} {p : Program} (hlines : SplitsLines source (before ++ line :: after))
    (hbefore : LinesDerive 1 before p) (complaint : Complaint) :
    programOfSource source = .error ⟨before.length + 1, complaint⟩ ↔
      readLine line = .error complaint := by
  simp only [programOfSource, hlines.eq_lines, programFrom_append hbefore, programFrom]
  split
  · rename_i found hread
    simp [hread, Nat.add_comm]
  · rename_i ss hread
    -- a line that is read leaves the report to later ones
    constructor
    · intro h
      have hle := le_line_of_programFrom h
      simp only at hle
      omega
    · intro h
      cases hread.symm.trans h

/-- A limit is reported for a line just if the line exceeds it.  A line of the grammar is read, or
exceeds the limit that is reported; a line outside of the grammar is reported as that, unless it has
too many tokens of the kind that a limit is about. -/
theorem limits_reported {source : List Char} {before after : List (List Char)} {line : List Char}
    {p : Program} (hlines : SplitsLines source (before ++ line :: after))
    (hbefore : LinesDerive 1 before p) :
    let reports (complaint : Complaint) : Prop :=
      programOfSource source = .error ⟨before.length + 1, complaint⟩
    (∀ ts ss depth count, Spells line ts → LineDerives ts ss depth count →
      count = operators ts ∧
      ((depth ≤ 64 ∧ count ≤ 512 ∧ ∀ complaint, ¬ reports complaint) ∨
        (64 < depth ∧ reports (.exceeded .nesting)) ∨
        (512 < count ∧ reports (.exceeded .operators)))) ∧
    (reports (.exceeded .operators) → 512 < operators (Token.ofLine line)) ∧
    (reports (.exceeded .nesting) → 64 < openers (Token.ofLine line)) ∧
    ((∀ ts ss depth count, Spells line ts → ¬ LineDerives ts ss depth count) →
      operators (Token.ofLine line) ≤ 512 → openers (Token.ofLine line) ≤ 64 → reports .invalid) ∧
    ∃ front back ts, line = front ++ back ∧ Spells front ts ∧
      (Token.ofLine line = ts ∨ Token.ofLine line = ts ++ [.stray]) := by
  intro reports
  have hreports : ∀ complaint, reports complaint ↔ readLine line = .error complaint :=
    programOfSource_eq_error_iff hlines hbefore
  refine ⟨?_, ?_, ?_, ?_, exists_spells_ofLine line⟩
  · intro ts ss depth count hspells hderives
    refine ⟨hderives.count_eq, ?_⟩
    have htokens := ofLine_eq_of_spells hspells hderives.distinct
    rcases readLine_complete (htokens ▸ hderives) with
      ⟨hdepth, hcount, h⟩ | ⟨hdepth, h⟩ | ⟨hcount, h⟩
    · refine .inl ⟨hdepth, hcount, fun complaint hreport => ?_⟩
      cases h.symm.trans ((hreports complaint).1 hreport)
    · exact .inr (.inl ⟨hdepth, (hreports _).2 h⟩)
    · exact .inr (.inr ⟨hcount, (hreports _).2 h⟩)
  · intro h
    exact readLine_error ((hreports _).1 h)
  · intro h
    exact readLine_error ((hreports _).1 h)
  · intro hnone hoperators hopeners
    refine (hreports _).2 ?_
    rcases hread : readLine line with complaint | ss
    · rcases complaint with _ | limit | limit
      · rfl
      · exact absurd hopeners (Nat.not_le_of_lt (readLine_error hread))
      · exact absurd hoperators (Nat.not_le_of_lt (readLine_error hread))
    · rcases readLine_eq_ok_iff.1 hread with ⟨ts, depth, count, hspells, hderives, _, _⟩
      exact absurd hderives (hnone ts ss depth count hspells)

/-- A product that is read and charged, although its parenthesis is not closed. -/
theorem limits_reported_after_charge :
    SplitsLines "# two\n(2 * 3".toList (["# two".toList] ++ ["(2 * 3".toList]) ∧
      LinesDerive 1 ["# two".toList] [] ∧
      programOfSource "# two\n(2 * 3".toList = .error ⟨2, .invalid⟩ := by
  have hlines : SplitsLines "# two\n(2 * 3".toList (["# two".toList] ++ ["(2 * 3".toList]) :=
    @SplitsLines.lineFeed "# two".toList _ _ (by decide) (by decide) (.last (by decide) (by decide))
  have hcomment : Spells "# two".toList [] := .comment (s := []) " two".toList (by simp [Blank])
  have hbefore : LinesDerive 1 ["# two".toList] [] :=
    .cons hcomment .empty (Nat.zero_le _) (Nat.zero_le _) (.nil _)
  have htokens : Token.ofLine "(2 * 3".toList = [.opening, .literal (.int 2), .op .multiply,
      .literal (.int 3)] := by decide +kernel
  have hinvalid : readLine "(2 * 3".toList = .error .invalid := by
    simp only [readLine, htokens]
    rfl
  have hnone : ∀ ts ss depth count, Spells "(2 * 3".toList ts →
      ¬ LineDerives ts ss depth count := by
    intro ts ss depth count hspells hderives
    have htokens := ofLine_eq_of_spells hspells hderives.distinct
    have hcomplete := readLine_complete (htokens ▸ hderives)
    simp only [hinvalid] at hcomplete
    simp at hcomplete
  have hreport := (limits_reported hlines hbefore).2.2.2.1 hnone (by rw [htokens]; decide)
    (by rw [htokens]; decide)
  exact ⟨hlines, hbefore, hreport⟩

end Script
end CodeSessions
