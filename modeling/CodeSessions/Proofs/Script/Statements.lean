import CodeSessions.Proofs.Script.Reading

/-!
# Statements — items, statements and lines of tokens

A print statement and a line are cut at their separators before the parts are read.  This file shows
that nothing is lost by the cut, since no separator stands inside a part, and takes the results of
`Reading` from expressions to statements and whole lines.

`Decides read P` says that a reader of whole token lists gives what `P` derives and nothing else; it
is passed on from expressions to sequences (`sequence_decides`) and to statements (`stmt_decides`).
-/

namespace CodeSessions
namespace Script

/-! ## Cuts at separators -/

section Split

variable {separator : Token} {ts us : List Token}

theorem splitFrom_eq (separator : Token) (ts part : List Token) (done : List (List Token)) :
    splitFrom separator part done ts = done.reverse ++ splitFrom separator part [] ts := by
  induction ts generalizing part done with
  | nil => simp [splitFrom]
  | cons t ts ih =>
      by_cases ht : t = separator
      · -- the part that ends here is done, in front of what comes of the rest
        have hdone := ih [] (part.reverse :: done)
        have hpart := ih [] [part.reverse]
        simp [splitFrom, ht, hdone, hpart]
      · simpa only [splitFrom, ht, if_false] using ih (t :: part) done

theorem splitFrom_of_not_mem (hts : separator ∉ ts) (part : List Token) :
    splitFrom separator part [] ts = [part.reverse ++ ts] := by
  induction ts generalizing part with
  | nil => simp [splitFrom]
  | cons t ts ih =>
      have hne : t ≠ separator := fun h => hts (h ▸ List.mem_cons_self)
      have hrest : separator ∉ ts := fun h => hts (List.mem_cons_of_mem t h)
      simp [splitFrom, hne, ih hrest]

theorem splitFrom_append (hts : separator ∉ ts) (us part : List Token) :
    splitFrom separator part [] (ts ++ separator :: us) =
      (part.reverse ++ ts) :: splitAt separator us := by
  induction ts generalizing part with
  | nil =>
      have hdone := splitFrom_eq separator us [] [part.reverse]
      simp [splitFrom, splitAt, hdone]
  | cons t ts ih =>
      have hne : t ≠ separator := fun h => hts (h ▸ List.mem_cons_self)
      have hrest : separator ∉ ts := fun h => hts (List.mem_cons_of_mem t h)
      simp [splitFrom, hne, ih hrest]

theorem splitAt_of_not_mem (hts : separator ∉ ts) : splitAt separator ts = [ts] :=
  splitFrom_of_not_mem hts []

theorem splitAt_append (hts : separator ∉ ts) (us : List Token) :
    splitAt separator (ts ++ separator :: us) = ts :: splitAt separator us :=
  splitFrom_append hts us []

/-- Induction over the parts of a list: a last part, or a part, a separator and the rest. -/
@[elab_as_elim]
theorem split_induction {motive : List Token → Prop} (separator : Token)
    (last : ∀ ts, separator ∉ ts → motive ts)
    (part : ∀ ts us, separator ∉ ts → motive us → motive (ts ++ separator :: us))
    (ts : List Token) : motive ts := by
  by_cases hts : separator ∈ ts
  · rcases List.eq_append_cons_of_mem hts with ⟨us, vs, rfl, hus⟩
    have hlt : vs.length < (us ++ separator :: vs).length := by
      simp only [List.length_append, List.length_cons]
      omega
    -- the part before the first separator, and then what is behind it
    exact part us vs hus (split_induction separator last part vs)
  · exact last ts hts
  termination_by ts.length

theorem splitAt_append_singleton (separator : Token) (ts : List Token) :
    splitAt separator (ts ++ [separator]) = splitAt separator ts ++ [[]] := by
  induction ts using split_induction separator with
  -- behind a separator at the end there is one more part, which is empty
  | last ts hts =>
      have hnil : splitAt separator [] = [[]] := rfl
      simp only [splitAt_append hts, splitAt_of_not_mem hts, hnil, List.singleton_append]
  | part ts us hts ih =>
      calc
        splitAt separator ((ts ++ separator :: us) ++ [separator]) =
            splitAt separator (ts ++ separator :: (us ++ [separator])) := by simp
        _ = ts :: splitAt separator (us ++ [separator]) := splitAt_append hts _
        _ = ts :: (splitAt separator us ++ [[]]) := congrArg (ts :: ·) ih
        _ = splitAt separator (ts ++ separator :: us) ++ [[]] := by simp [splitAt_append hts]

theorem splitAt_ne_nil (separator : Token) (ts : List Token) : splitAt separator ts ≠ [] := by
  induction ts using split_induction separator with
  | last ts hts => simp [splitAt_of_not_mem hts]
  | part ts us hts _ => simp [splitAt_append hts]

theorem intercalate_splitAt (separator : Token) (ts : List Token) :
    [separator].intercalate (splitAt separator ts) = ts := by
  induction ts using split_induction separator with
  | last ts hts => simp [splitAt_of_not_mem hts]
  | part ts us hts ih =>
      have hrest := splitAt_ne_nil separator us
      simp [splitAt_append hts, List.intercalate_cons_of_ne_nil hrest, ih]

end Split

/-! ## Sequences of parts -/

/-- A reader of whole token lists gives what `P` derives, at no more than the cost it charges, and
misses nothing within the limits. -/
structure Decides {α : Type} (read : List Token → Nat → Except Complaint (α × Nat))
    (P : List Token → α → Nat → Nat → Prop) : Prop where
  sound : ∀ {ts : List Token} {a : α} {budget left : Nat}, read ts budget = .ok (a, left) →
    ∃ depth count, P ts a depth count ∧ depth < maxNesting + 1 ∧ left + count ≤ budget
  complete : ∀ {ts : List Token} {a : α} {depth count : Nat}, P ts a depth count →
    ∀ budget, Outcome .exceeded (maxNesting + 1) depth budget count a (read ts budget)

theorem expr_decides : Decides readExpr (Derives .disjunction) where
  sound := by
    intro ts e budget left h
    -- the reader must have taken all tokens, so they are what the expression derives from
    have hsound := (levels_sound (maxNesting + 1)).expression ts budget
    simp only [readExpr] at h
    split at h
    · rename_i e' left' heq
      cases h
      rcases hsound _ heq with ⟨us, depth, count, rfl, he, hdepth, hcount⟩
      exact ⟨depth, count, by simpa using he, hdepth, hcount⟩
    · cases h
    · cases h
  complete := by
    intro ts e depth count h budget
    have hstops : Stops .disjunction [] := by
      intro op us h
      cases h
    have hread := h.reads maxNesting budget [] hstops
    simp only [List.append_nil] at hread
    change Outcome _ _ _ _ _ _ ((levels (maxNesting + 1)).expression ts budget) at hread
    simp only [readExpr]
    -- with no tokens behind the expression, the reader has nothing left to complain about
    generalize (levels (maxNesting + 1)).expression ts budget = result at hread
    cases hread with
    | fits hdepth hcount => exact .fits hdepth hcount
    | tooDeep hdepth => exact .tooDeep hdepth
    | tooMany hcount => exact .tooMany hcount

/-- Parts between separators, of which the last may be empty; tells whether it is. -/
inductive Sequence {α : Type} (separator : Token) (P : List Token → α → Nat → Nat → Prop) :
    List Token → List α × Bool → Nat → Nat → Prop
  | empty : Sequence separator P [] ([], true) 0 0
  | plain {ts : List Token} {as : List α} {depth count : Nat} :
      Separated separator P ts as depth count → Sequence separator P ts (as, false) depth count
  | trailing {ts : List Token} {as : List α} {depth count : Nat} :
      Separated separator P ts as depth count →
      Sequence separator P (ts ++ [separator]) (as, true) depth count

section Sequence

variable {α : Type} {separator : Token} {read : List Token → Nat → Except Complaint (α × Nat)}
  {P : List Token → α → Nat → Nat → Prop}

theorem partsFrom_cons {part : List Token} {rest : List (List Token)}
    (h : ¬(part = [] ∧ rest = [])) (done : List α) (budget : Nat) :
    partsFrom read done (part :: rest) budget =
      (read part budget >>= fun r => partsFrom read (r.1 :: done) rest r.2) := by
  rw [partsFrom]
  intro hpart hrest
  exact h ⟨hpart, hrest⟩

theorem partsFrom_sound (separator : Token) (hread : Decides read P)
    {parts : List (List Token)} (hparts : parts ≠ [])
    {done as : List α} {last : Bool} {budget left : Nat}
    (h : partsFrom read done parts budget = .ok ((as, last), left)) :
    (parts = [[]] ∧ as = done.reverse ∧ last = true ∧ left = budget) ∨
      ∃ ts new depth count, as = done.reverse ++ new ∧ Separated separator P ts new depth count ∧
        depth < maxNesting + 1 ∧ left + count ≤ budget ∧
        [separator].intercalate parts = ts ++ if last then [separator] else [] := by
  induction parts generalizing done budget with
  | nil => exact absurd rfl hparts
  | cons part rest ih =>
      -- only an empty part at the end is passed over; any other is read
      by_cases hpart : part = [] ∧ rest = []
      · left
        rcases hpart with ⟨rfl, rfl⟩
        cases h
        exact ⟨rfl, rfl, rfl, rfl⟩
      · right
        simp only [partsFrom_cons hpart] at h
        rcases ok_of_bind_eq_ok h with ⟨⟨a, paid⟩, hpaid, hrest⟩
        rcases hread.sound hpaid with ⟨depth, count, ha, hdepth, hcount⟩
        by_cases hnil : rest = []
        · subst hnil
          cases hrest
          exact ⟨part, [a], depth, count, by simp, .one ha, hdepth, hcount, by simp⟩
        · simp only [List.intercalate_cons_of_ne_nil hnil]
          rcases ih hnil hrest with ⟨rfl, rfl, rfl, rfl⟩ |
            ⟨ts, new, depth', count', rfl, hts, hdepth', hcount', htokens⟩
          · exact ⟨part, [a], depth, count, by simp, .one ha, hdepth, hcount, by simp⟩
          · refine ⟨part ++ separator :: ts, a :: new, max depth depth', count + count', by simp,
              .cons ha hts, by omega, by omega, ?_⟩
            simp [htokens]

theorem partsFrom_complete (hread : Decides read P)
    (hP : ∀ {ts a depth count}, P ts a depth count → ts ≠ [] ∧ separator ∉ ts)
    {ts : List Token} {as : List α} {depth count : Nat}
    (h : Separated separator P ts as depth count) (tail : List (List Token)) {last : Bool}
    (htail : ∀ done budget, partsFrom read done tail budget = .ok ((done.reverse, last), budget))
    (done : List α) (budget : Nat) :
    Outcome .exceeded (maxNesting + 1) depth budget count (done.reverse ++ as, last)
      (partsFrom read done (splitAt separator ts ++ tail) budget) := by
  induction h generalizing done budget with
  | one h =>
      rename_i ts a depth count
      have hpart : ¬(ts = [] ∧ tail = []) := fun hnil => (hP h).1 hnil.1
      simp only [splitAt_of_not_mem (hP h).2, List.singleton_append, partsFrom_cons hpart]
      refine (hread.complete h budget).map fun left => ?_
      simp [htail]
  | cons h _ ih =>
      -- a part of a derivation is never empty, so the reader takes it for a part
      simp only [splitAt_append (hP h).2, List.cons_append,
        partsFrom_cons fun hnil => (hP h).1 hnil.1]
      refine (hread.complete h budget).bind ?_
      simpa using ih (_ :: done) _

theorem sequence_decides (hread : Decides read P)
    (hP : ∀ {ts a depth count}, P ts a depth count → ts ≠ [] ∧ separator ∉ ts) :
    Decides (fun ts => partsFrom read [] (splitAt separator ts)) (Sequence separator P) where
  sound := by
    intro ts a budget left h
    rcases a with ⟨as, last⟩
    -- the parts joined again are the tokens that were cut
    have htokens := intercalate_splitAt separator ts
    rcases partsFrom_sound separator hread (splitAt_ne_nil separator ts) h with
      ⟨hparts, rfl, rfl, rfl⟩ | ⟨us, new, depth, count, rfl, hus, hdepth, hcount, hus'⟩
    · simp only [hparts, List.intercalate_singleton] at htokens
      subst htokens
      exact ⟨0, 0, .empty, Nat.succ_pos _, Nat.le_refl _⟩
    · simp only [htokens] at hus'
      subst hus'
      cases last with
      | false => exact ⟨depth, count, by simpa using .plain hus, hdepth, hcount⟩
      | true => exact ⟨depth, count, .trailing hus, hdepth, hcount⟩
  complete := by
    intro ts a depth count h budget
    cases h with
    | empty => exact .fits (Nat.succ_pos _) (Nat.zero_le budget)
    | plain h =>
        have hparts := partsFrom_complete hread hP h [] (fun _ _ => rfl) [] budget
        simpa using hparts
    | trailing h =>
        simp only [splitAt_append_singleton]
        exact partsFrom_complete hread hP h [[]] (fun _ _ => rfl) [] budget

end Sequence

/-! ## Statements -/

theorem Separated.exists_cons {α : Type} {separator : Token}
    {P : List Token → α → Nat → Nat → Prop} {ts : List Token} {as : List α} {depth count : Nat}
    (h : Separated separator P ts as depth count) : ∃ a rest, as = a :: rest := by
  cases h with
  | one _ => exact ⟨_, [], rfl⟩
  | cons _ _ => exact ⟨_, _, rfl⟩

theorem Derives.ne_nil_and_not_mem {l : Level} {ts : List Token} {e : Expr} {depth count : Nat}
    {t : Token} (ht : t.isInner = false) (h : Derives l ts e depth count) : ts ≠ [] ∧ t ∉ ts := by
  refine ⟨?_, fun hmem => ?_⟩
  · rcases h.exists_cons with ⟨t, us, rfl, _⟩
    exact List.cons_ne_nil t us
  · cases (h.isInner t hmem).symm.trans ht

theorem items_decide :
    Decides (fun ts => partsFrom readExpr [] (splitAt .comma ts))
      (Sequence .comma (Derives .disjunction)) :=
  sequence_decides expr_decides fun h => h.ne_nil_and_not_mem rfl

/-- Tokens that can all stand in an expression are read as one. -/
theorem readStmt_of_isInner {ts : List Token} (h : ∀ t ∈ ts, t.isInner = true) (budget : Nat) :
    readStmt ts budget = (readExpr ts budget >>= fun r => .ok (.expr r.1, r.2)) := by
  simp only [readStmt]
  split
  · cases h .print List.mem_cons_self
  · cases h .assign (List.mem_cons_of_mem _ List.mem_cons_self)
  · rfl

theorem stmt_decides : Decides readStmt StmtDerives where
  sound := by
    intro ts s budget left h
    simp only [readStmt] at h
    split at h
    · rcases ok_of_bind_eq_ok h with ⟨⟨⟨items, last⟩, left'⟩, hitems, hdone⟩
      rcases items_decide.sound hitems with ⟨depth, count, hsequence, hdepth, hcount⟩
      cases hdone
      refine ⟨depth, count, ?_, hdepth, hcount⟩
      -- a comma at the end of the items, or none, or no items at all
      cases hsequence with
      | empty => exact .printNothing
      | plain hitems => simpa using StmtDerives.print hitems
      | trailing hitems =>
          rcases hitems.exists_cons with ⟨item, rest, rfl⟩
          exact .printOpen hitems
    · rcases ok_of_bind_eq_ok h with ⟨⟨e, left'⟩, hread, hdone⟩
      rcases expr_decides.sound hread with ⟨depth, count, he, hdepth, hcount⟩
      cases hdone
      exact ⟨depth, count, .assign _ he, hdepth, hcount⟩
    · rcases ok_of_bind_eq_ok h with ⟨⟨e, left'⟩, hread, hdone⟩
      rcases expr_decides.sound hread with ⟨depth, count, he, hdepth, hcount⟩
      cases hdone
      exact ⟨depth, count, .expr he, hdepth, hcount⟩
  complete := by
    intro ts s depth count h budget
    cases h with
    | printNothing => exact (items_decide.complete .empty budget).map fun _ => rfl
    | print hitems =>
        rename_i ts items
        refine (items_decide.complete (.plain hitems) budget).map fun _ => ?_
        simp
    | printOpen hitems =>
        rename_i ts items
        refine (items_decide.complete (.trailing hitems) budget).map fun _ => ?_
        rcases hitems.exists_cons with ⟨item, rest, rfl⟩
        rfl
    | assign target he => exact (expr_decides.complete he budget).map fun _ => rfl
    | expr he =>
        simp only [readStmt_of_isInner he.isInner]
        exact (expr_decides.complete he budget).map fun _ => rfl

theorem Separated.not_mem {α : Type} {separator t : Token} {P : List Token → α → Nat → Nat → Prop}
    (hP : ∀ {ts a depth count}, P ts a depth count → t ∉ ts) (hne : t ≠ separator)
    {ts : List Token} {as : List α} {depth count : Nat}
    (h : Separated separator P ts as depth count) : t ∉ ts := by
  induction h with
  | one h => exact hP h
  | cons h _ ih => simp [hP h, hne, ih]

theorem StmtDerives.ne_nil_and_not_mem {ts : List Token} {s : Stmt} {depth count : Nat}
    (h : StmtDerives ts s depth count) : ts ≠ [] ∧ .semicolon ∉ ts := by
  have hitems : ∀ {ts items depth count}, ItemsDerive ts items depth count → .semicolon ∉ ts :=
    fun h => h.not_mem (fun h => (h.ne_nil_and_not_mem rfl).2) (by decide)
  cases h with
  | printNothing => simp
  | print h => simp [hitems h]
  | printOpen h => simp [hitems h]
  | assign target h => simp [(h.ne_nil_and_not_mem (t := .semicolon) rfl).2]
  | expr h => exact h.ne_nil_and_not_mem rfl

/-! ## Lines -/

theorem Separated.ne_semicolon {ts : List Token} {ss : List Stmt} {depth count : Nat}
    (h : Separated .semicolon StmtDerives ts ss depth count) : ts ≠ [] ∧ ts ≠ [.semicolon] := by
  cases h with
  | one h =>
      refine ⟨h.ne_nil_and_not_mem.1, ?_⟩
      rintro rfl
      exact h.ne_nil_and_not_mem.2 List.mem_cons_self
  -- two statements have a separator and at least one token besides
  | cons h _ =>
      have hpos := List.length_pos_iff.2 h.ne_nil_and_not_mem.1
      refine ⟨by simp, fun heq => ?_⟩
      have hlength := congrArg List.length heq
      simp only [List.length_append, List.length_cons, List.length_nil] at hlength
      omega

theorem line_decides :
    Decides (fun ts => partsFrom readStmt [] (splitAt .semicolon ts))
      (Sequence .semicolon StmtDerives) :=
  sequence_decides stmt_decides StmtDerives.ne_nil_and_not_mem

theorem LineDerives.of_sequence {ts : List Token} {ss : List Stmt} {last : Bool}
    {depth count : Nat} (h : Sequence .semicolon StmtDerives ts (ss, last) depth count) :
    LineDerives ts ss depth count := by
  cases h with
  | empty => exact .empty
  | plain h => exact .statements h
  | trailing h => exact .terminated h

theorem readLine_of_ne {line : List Char} (h : Token.ofLine line ≠ [.semicolon]) :
    readLine line =
      (partsFrom readStmt [] (splitAt .semicolon (Token.ofLine line)) maxOperators >>=
        fun r => .ok r.1.1) := by
  simp only [readLine]

theorem readLine_sound {line : List Char} {ss : List Stmt} (h : readLine line = .ok ss) :
    ∃ depth count, LineDerives (Token.ofLine line) ss depth count ∧ depth ≤ maxNesting ∧
      count ≤ maxOperators := by
  by_cases hline : Token.ofLine line = [.semicolon]
  · -- a lone semicolon is a line without statements
    simp only [readLine, hline] at h
    cases h
    exact ⟨0, 0, hline ▸ .semicolon, Nat.zero_le _, Nat.zero_le _⟩
  · simp only [readLine_of_ne hline] at h
    rcases ok_of_bind_eq_ok h with ⟨⟨⟨ss', last⟩, left⟩, hread, hdone⟩
    rcases line_decides.sound hread with ⟨depth, count, hsequence, hdepth, hcount⟩
    cases hdone
    exact ⟨depth, count, .of_sequence hsequence, by omega, by omega⟩

/-- A line with a derivation is read, or exceeds the limit that is reported. -/
theorem readLine_complete {line : List Char} {ss : List Stmt} {depth count : Nat}
    (h : LineDerives (Token.ofLine line) ss depth count) :
    (depth ≤ maxNesting ∧ count ≤ maxOperators ∧ readLine line = .ok ss) ∨
      (maxNesting < depth ∧ readLine line = .error (.exceeded .nesting)) ∨
      (maxOperators < count ∧ readLine line = .error (.exceeded .operators)) := by
  generalize htokens : Token.ofLine line = ts at h
  have hread : ∀ {last}, ts ≠ [.semicolon] →
      Sequence .semicolon StmtDerives ts (ss, last) depth count →
      (depth ≤ maxNesting ∧ count ≤ maxOperators ∧ readLine line = .ok ss) ∨
        (maxNesting < depth ∧ readLine line = .error (.exceeded .nesting)) ∨
        (maxOperators < count ∧ readLine line = .error (.exceeded .operators)) := by
    intro last hne hsequence
    have houtcome := line_decides.complete hsequence maxOperators
    simp only [readLine_of_ne (htokens ▸ hne), htokens]
    generalize partsFrom readStmt [] (splitAt .semicolon ts) maxOperators = result at houtcome
    -- room for one level more than the limit means a depth up to the limit
    cases houtcome with
    | fits hdepth hcount => exact .inl ⟨by omega, hcount, rfl⟩
    | tooDeep hdepth => exact .inr (.inl ⟨by omega, rfl⟩)
    | tooMany hcount => exact .inr (.inr ⟨hcount, rfl⟩)
  cases h with
  | empty => exact hread (by decide) .empty
  | semicolon =>
      refine .inl ⟨Nat.zero_le _, Nat.zero_le _, ?_⟩
      simp only [readLine, htokens]
  | statements h => exact hread h.ne_semicolon.2 (.plain h)
  | terminated h =>
      refine hread (fun hnil => h.ne_semicolon.1 ?_) (.trailing h)
      simpa using hnil

end Script
end CodeSessions
