import CodeSessions.Proofs.Script.Spelling
import CodeSessions.Proofs.Script.Statements
import CodeSessions.Script.Program

/-!
# Source texts — a source is read exactly as the grammar says

The grammar of whole sources, and the theorem that `programOfSource` gives a program just where the
grammar does, and the same one:

- `SplitsLines source lines`: the lines of a source,
- `LinesDerive n lines p`: the lines spell tokens, within the limits, that derive the statements of
  `p`, and the first line has number `n`,
- `programOfSource_eq_ok_iff`.

A line may spell several lists of tokens, but only in one of them can no token merge with the next,
and all derivations are of this kind (`LineDerives.distinct`).
-/

namespace CodeSessions
namespace Script

/-! ## Neighbours in a derivation -/

/-- Whether an expression can end with a token. -/
def Token.closes : Token → Bool
  | literal _ | name _ | closing => true
  | _ => false

mutual

theorem Derives.exists_append {l : Level} {ts : List Token} {e : Expr} {depth count : Nat} :
    Derives l ts e depth count → ∃ us t, ts = us ++ [t] ∧ t.closes = true
  | .literal value => ⟨[], .literal value, rfl, rfl⟩
  | .name x => ⟨[], .name x, rfl, rfl⟩
  | .parens _ => ⟨_, .closing, rfl, rfl⟩
  | .unsigned h | .affirmed h => h.exists_append
  | .negate h => by
      rcases h.exists_append with ⟨us, t, rfl, ht⟩
      exact ⟨.op .subtract :: us, t, rfl, ht⟩
  | .plus h => by
      rcases h.exists_append with ⟨us, t, rfl, ht⟩
      exact ⟨.op .add :: us, t, rfl, ht⟩
  | .not h => by
      rcases h.exists_append with ⟨us, t, rfl, ht⟩
      exact ⟨.not :: us, t, rfl, ht⟩
  | .joined _ h hsteps => by
      rcases hsteps.eq_nil_or_exists_append with rfl | ⟨us, t, rfl, ht⟩
      · simpa using h.exists_append
      · exact ⟨_, t, (List.append_assoc _ us [t]).symm, ht⟩

theorem Steps.eq_nil_or_exists_append {l : Level} {ts : List Token}
    {steps : List (BinaryOp × Expr)} {depth count : Nat} :
    Steps l ts steps depth count → ts = [] ∨ ∃ us t, ts = us ++ [t] ∧ t.closes = true
  | .nil _ => .inl rfl
  | .cons _ _ h hsteps => by
      right
      rcases hsteps.eq_nil_or_exists_append with rfl | ⟨us, t, rfl, ht⟩
      · rcases h.exists_append with ⟨us, t, rfl, ht⟩
        exact ⟨.op _ :: us, t, List.append_nil _, ht⟩
      · exact ⟨_, t, (List.append_assoc _ us [t]).symm, ht⟩

end

/-- No token could merge with the next. -/
abbrev Distinct (ts : List Token) : Prop :=
  ts.IsChain fun t u => t.merges u = false

theorem Distinct.cons {t : Token} {ts : List Token} (h : Distinct ts)
    (ht : ∀ u ∈ ts.head?, t.merges u = false) : Distinct (t :: ts) :=
  List.isChain_cons.2 ⟨ht, h⟩

theorem Distinct.append {ts us : List Token} (hts : Distinct ts) (hus : Distinct us)
    (h : ∀ t ∈ ts.getLast?, ∀ u ∈ us.head?, t.merges u = false) : Distinct (ts ++ us) :=
  List.isChain_append.2 ⟨hts, hus, h⟩

theorem Token.merges_of_opens {op : BinaryOp} {l : Level} {u : Token} (hu : u.opens l = true) :
    (Token.op op).merges u = false := by
  cases u with
  | assign => cases hu
  | op op' => cases op' <;> first | rfl | cases hu
  | _ => rfl

theorem Token.merges_of_closes {op : BinaryOp} {t : Token} (ht : t.closes = true) :
    t.merges (.op op) = false := by
  -- what ends an expression is no operator, and so takes up no equals sign
  cases t with
  | op _ => cases ht
  | _ => rfl

/-- The steps of a level start with an operator, which merges with no token that ends an operand. -/
theorem Steps.fits {l : Level} {us : List Token} {steps : List (BinaryOp × Expr)}
    {depth count : Nat} (h : Steps l us steps depth count) {ts : List Token}
    (hts : ∃ vs t, ts = vs ++ [t] ∧ t.closes = true) :
    ∀ t ∈ ts.getLast?, ∀ u ∈ us.head?, t.merges u = false := by
  rcases hts with ⟨vs, t, rfl, ht⟩
  intro t' ht' u hu
  simp only [List.getLast?_concat] at ht'
  cases ht'
  cases h with
  | nil _ => cases hu
  | cons _ _ _ _ =>
      cases hu
      exact Token.merges_of_closes ht

theorem Distinct.cons_op {op : BinaryOp} {l : Level} {ts : List Token} {e : Expr}
    {depth count : Nat} (h : Derives l ts e depth count) (hts : Distinct ts) :
    Distinct (.op op :: ts) := by
  -- an operator merges with an equals sign only, and no expression starts with one
  refine hts.cons fun u hu => ?_
  rcases h.exists_cons with ⟨t, us, rfl, ht⟩
  cases hu
  exact Token.merges_of_opens ht

mutual

theorem Derives.distinct {l : Level} {ts : List Token} {e : Expr} {depth count : Nat} :
    Derives l ts e depth count → Distinct ts
  | .literal _ => .singleton _
  | .name _ => .singleton _
  -- a parenthesis merges with nothing, on either side
  | .parens h => (h.distinct.cons fun _ _ => rfl).append (.singleton _) fun t _ u hu => by
      cases hu
      cases t <;> rfl
  | .unsigned h | .affirmed h => h.distinct
  | .negate h | .plus h => h.distinct.cons_op h
  | .not h => h.distinct.cons fun _ _ => rfl
  | .joined _ h hsteps => h.distinct.append hsteps.distinct (hsteps.fits h.exists_append)

theorem Steps.distinct {l : Level} {ts : List Token} {steps : List (BinaryOp × Expr)}
    {depth count : Nat} : Steps l ts steps depth count → Distinct ts
  | .nil _ => .nil
  | .cons _ _ h hsteps => by
      refine (h.distinct.cons_op h).append hsteps.distinct (hsteps.fits ?_)
      rcases h.exists_append with ⟨us, t, rfl, ht⟩
      exact ⟨.op _ :: us, t, rfl, ht⟩

end

section Separators

variable {separator : Token} (hbefore : ∀ t : Token, t.merges separator = false)
  (hafter : ∀ t : Token, separator.merges t = false)

include hbefore in
theorem Distinct.append_separator {ts : List Token} (h : Distinct ts) :
    Distinct (ts ++ [separator]) := by
  refine h.append (.singleton separator) fun t _ u hu => ?_
  cases hu
  exact hbefore t

include hbefore hafter in
theorem Separated.distinct {α : Type} {P : List Token → α → Nat → Nat → Prop}
    (hP : ∀ {ts a depth count}, P ts a depth count → Distinct ts) {ts : List Token} {as : List α}
    {depth count : Nat} (h : Separated separator P ts as depth count) : Distinct ts := by
  induction h with
  | one h => exact hP h
  | cons h _ ih =>
      refine (hP h).append (ih.cons fun u _ => hafter u) fun t _ u hu => ?_
      cases hu
      exact hbefore t

end Separators

theorem Token.merges_comma (t : Token) : t.merges .comma = false := by
  cases t <;> rfl

theorem Token.merges_semicolon (t : Token) : t.merges .semicolon = false := by
  cases t <;> rfl

theorem StmtDerives.distinct {ts : List Token} {s : Stmt} {depth count : Nat}
    (h : StmtDerives ts s depth count) : Distinct ts := by
  have hitems : ∀ {ts items depth count}, ItemsDerive ts items depth count → Distinct ts :=
    fun h => h.distinct Token.merges_comma (fun _ => rfl) fun h => h.distinct
  cases h with
  | printNothing => exact .singleton _
  | print h => exact (hitems h).cons fun _ _ => rfl
  | printOpen h => exact ((hitems h).append_separator Token.merges_comma).cons fun _ _ => rfl
  -- the equals sign would merge with an operator before it, but a name stands there
  | assign target h => exact (h.distinct.cons fun _ _ => rfl).cons fun _ _ => rfl
  | expr h => exact h.distinct

theorem LineDerives.distinct {ts : List Token} {ss : List Stmt} {depth count : Nat}
    (h : LineDerives ts ss depth count) : Distinct ts := by
  have hstmts : ∀ {ts ss depth count}, Separated .semicolon StmtDerives ts ss depth count →
      Distinct ts :=
    fun h => h.distinct Token.merges_semicolon (fun _ => rfl) fun h => h.distinct
  cases h with
  | empty => exact .nil
  | semicolon => exact .singleton _
  | statements h => exact hstmts h
  | terminated h => exact (hstmts h).append_separator Token.merges_semicolon

/-! ## Lines -/

theorem StmtDerives.not_mem_stray {ts : List Token} {s : Stmt} {depth count : Nat}
    (h : StmtDerives ts s depth count) : .stray ∉ ts := by
  have hexpr : ∀ {ts e depth count}, Derives .disjunction ts e depth count → .stray ∉ ts :=
    fun h => (h.ne_nil_and_not_mem rfl).2
  have hitems : ∀ {ts items depth count}, ItemsDerive ts items depth count → .stray ∉ ts :=
    fun h => h.not_mem hexpr (by decide)
  cases h with
  | printNothing => simp
  | print h => simp [hitems h]
  | printOpen h => simp [hitems h]
  | assign target h => simp [hexpr h]
  | expr h => exact hexpr h

theorem LineDerives.not_mem_stray {ts : List Token} {ss : List Stmt} {depth count : Nat}
    (h : LineDerives ts ss depth count) : .stray ∉ ts := by
  have hstmts : ∀ {ts ss depth count}, Separated .semicolon StmtDerives ts ss depth count →
      .stray ∉ ts :=
    fun h => h.not_mem StmtDerives.not_mem_stray (by decide)
  cases h with
  | empty => simp
  | semicolon => simp
  | statements h => exact hstmts h
  | terminated h => simp [hstmts h]

theorem readLine_eq_ok_iff {line : List Char} {ss : List Stmt} :
    readLine line = .ok ss ↔
      ∃ ts depth count, Spells line ts ∧ LineDerives ts ss depth count ∧ depth ≤ 64 ∧
        count ≤ 512 := by
  constructor
  · intro h
    rcases readLine_sound h with ⟨depth, count, hderives, hdepth, hcount⟩
    exact ⟨_, depth, count, spells_ofLine line hderives.not_mem_stray, hderives, hdepth, hcount⟩
  · rintro ⟨ts, depth, count, hspells, hderives, hdepth, hcount⟩
    -- no other list of tokens could have been found, since in this one no tokens merge
    have htokens := ofLine_eq_of_spells hspells hderives.distinct
    rcases readLine_complete (htokens ▸ hderives) with ⟨_, _, h⟩ | ⟨hdepth', _⟩ | ⟨hcount', _⟩
    · exact h
    · exact absurd hdepth (Nat.not_le_of_lt hdepth')
    · exact absurd hcount (Nat.not_le_of_lt hcount')

/-! ## The lines of a source -/

/-- A line ends at a line feed, or at a carriage return and a line feed.  What follows the last line
feed is a line if it is not empty. -/
inductive SplitsLines : List Char → List (List Char) → Prop
  | nil : SplitsLines [] []
  | last {line : List Char} : line ≠ [] → '\n' ∉ line → SplitsLines line [line]
  | lineFeed {line rest : List Char} {lines : List (List Char)} :
      '\n' ∉ line → line.getLast? ≠ some '\r' → SplitsLines rest lines →
      SplitsLines (line ++ '\n' :: rest) (line :: lines)
  | carriageReturn {line rest : List Char} {lines : List (List Char)} :
      '\n' ∉ line → SplitsLines rest lines →
      SplitsLines (line ++ '\r' :: '\n' :: rest) (line :: lines)

theorem linesFrom_append {line : List Char} (hline : '\n' ∉ line) (acc : List Char)
    (done : List (List Char)) (s : List Char) :
    Text.linesFrom acc done (line ++ s) = Text.linesFrom (line.reverse ++ acc) done s := by
  induction line generalizing acc with
  | nil => rfl
  | cons c line ih =>
      have hc : c ≠ '\n' := fun h => hline (h ▸ List.mem_cons_self)
      have hrest : '\n' ∉ line := fun h => hline (List.mem_cons_of_mem c h)
      have hline' := ih hrest (c :: acc)
      simp [Text.linesFrom, hline']

theorem linesFrom_eq (acc : List Char) (done : List (List Char)) (s : List Char) :
    Text.linesFrom acc done s = done.reverse ++ Text.linesFrom acc [] s := by
  induction s generalizing acc done with
  | nil =>
      cases acc with
      | nil => simp [Text.linesFrom]
      | cons c acc => simp [Text.linesFrom]
  | cons c s ih =>
      by_cases hc : c = '\n'
      · -- the line is closed, in front of what comes of the rest
        subst hc
        have hdone := ih [] (Text.closeLine acc :: done)
        have hline := ih [] [Text.closeLine acc]
        simp [Text.linesFrom, hdone, hline]
      · simpa [Text.linesFrom, hc] using ih (c :: acc) done

theorem lines_append {line : List Char} (hline : '\n' ∉ line) (rest : List Char) :
    Text.lines (line ++ '\n' :: rest) = Text.closeLine line.reverse :: Text.lines rest := by
  have hrest := linesFrom_eq [] [Text.closeLine line.reverse] rest
  simp [Text.lines, linesFrom_append hline, Text.linesFrom, hrest]

theorem closeLine_reverse {line : List Char} (h : line.getLast? ≠ some '\r') :
    Text.closeLine line.reverse = line := by
  simp only [Text.closeLine]
  split
  · -- a carriage return at the end would be the first one from behind
    rename_i heq
    simp only [← List.head?_reverse, heq] at h
    exact absurd rfl h
  · exact List.reverse_reverse line

theorem SplitsLines.eq_lines {s : List Char} {lines : List (List Char)} (h : SplitsLines s lines) :
    Text.lines s = lines := by
  induction h with
  | nil => rfl
  | @last line hne hline =>
      have happend := linesFrom_append hline [] [] []
      simp only [List.append_nil] at happend
      simp [Text.lines, happend, Text.linesFrom, hne]
  | lineFeed hline hlast _ ih => simp only [lines_append hline, closeLine_reverse hlast, ih]
  | @carriageReturn line rest lines hline _ ih =>
      -- cut at the line feed first: the carriage return is the last character of what is before
      have hline' : '\n' ∉ line ++ ['\r'] := by simp [hline]
      have hsplit : line ++ '\r' :: '\n' :: rest = (line ++ ['\r']) ++ '\n' :: rest := by simp
      simp only [hsplit, lines_append hline', ih]
      simp [Text.closeLine]

theorem splitsLines_lines (s : List Char) : SplitsLines s (Text.lines s) := by
  by_cases hs : '\n' ∈ s
  · rcases List.eq_append_cons_of_mem hs with ⟨line, rest, rfl, hline⟩
    have hlt : rest.length < (line ++ '\n' :: rest).length := by
      simp only [List.length_append, List.length_cons]
      omega
    -- by induction on the length: the first line, and then the rest behind its line feed
    have ih := splitsLines_lines rest
    simp only [lines_append hline]
    by_cases hlast : line.getLast? = some '\r'
    · rcases List.getLast?_eq_some_iff.1 hlast with ⟨line', rfl⟩
      have hline' : '\n' ∉ line' := fun h => hline (List.mem_append_left _ h)
      simpa [Text.closeLine] using SplitsLines.carriageReturn hline' ih
    · simpa only [closeLine_reverse hlast] using SplitsLines.lineFeed hline hlast ih
  · by_cases hnil : s = []
    · subst hnil
      exact .nil
    · have hlast : SplitsLines s [s] := .last hnil hs
      simpa only [hlast.eq_lines] using hlast
  termination_by s.length

/-! ## Programs -/

/-- The lines from number `n` on, each within the limits, and the statements that they hold. -/
inductive LinesDerive : Nat → List (List Char) → Program → Prop
  | nil (n : Nat) : LinesDerive n [] []
  | cons {n : Nat} {line : List Char} {lines : List (List Char)} {ts : List Token}
      {ss : List Stmt} {depth count : Nat} {p : Program} :
      Spells line ts → LineDerives ts ss depth count → depth ≤ 64 → count ≤ 512 →
      LinesDerive (n + 1) lines p →
      LinesDerive n (line :: lines) (ss.map (fun s => ⟨n, s⟩) ++ p)

/-- The grammar of sources: the lines are counted from one. -/
def ProgramDerives (source : List Char) (p : Program) : Prop :=
  ∃ lines, SplitsLines source lines ∧ LinesDerive 1 lines p

theorem LinesDerive.exists_of_mem {n : Nat} {lines : List (List Char)} {p : Program} {l : Located}
    (h : LinesDerive n lines p) (hl : l ∈ p) :
    ∃ us depth count, StmtDerives us l.statement depth count ∧ depth ≤ 64 ∧ count ≤ 512 := by
  induction h with
  | nil n => cases hl
  | cons _ hderives hdepth hcount _ ih =>
      rcases List.mem_append.1 hl with hl | hl
      · rcases List.mem_map.1 hl with ⟨s, hs, rfl⟩
        rcases hderives.exists_of_mem hs with ⟨us, depth', count', hstmt, hdepth', hcount'⟩
        exact ⟨us, depth', count', hstmt, hdepth'.trans hdepth, hcount'.trans hcount⟩
      · exact ih hl

theorem programFrom_eq_ok_iff {lines : List (List Char)} {done p : Program} {n : Nat} :
    programFrom done n lines = .ok p ↔ ∃ q, p = done.reverse ++ q ∧ LinesDerive n lines q := by
  induction lines generalizing done n with
  | nil =>
      constructor
      · intro h
        cases h
        exact ⟨[], by simp, .nil n⟩
      · rintro ⟨q, rfl, h⟩
        cases h
        simp [programFrom]
  | cons line lines ih =>
      simp only [programFrom]
      constructor
      · intro h
        split at h
        · cases h
        · rename_i ss hread
          rcases readLine_eq_ok_iff.1 hread with ⟨ts, depth, count, hts, hss, hdepth, hcount⟩
          -- the statements of this line stand in front of those of the lines after it
          rcases ih.1 h with ⟨q, rfl, hq⟩
          refine ⟨ss.map (fun s => ⟨n, s⟩) ++ q, ?_, .cons hts hss hdepth hcount hq⟩
          simp
      · rintro ⟨q, rfl, h⟩
        cases h with
        | @cons _ _ _ ts ss depth count q hts hss hdepth hcount hq =>
            have hread := readLine_eq_ok_iff.2 ⟨ts, depth, count, hts, hss, hdepth, hcount⟩
            simp only [hread]
            refine ih.2 ⟨q, ?_, hq⟩
            simp

/-- Lines are read one after the other, up to a line that cannot be read. -/
theorem programFrom_append_eq (before after : List (List Char)) (done : Program) (n : Nat) :
    programFrom done n (before ++ after) =
      (programFrom done n before).bind fun p =>
        programFrom p.reverse (n + before.length) after := by
  induction before generalizing done n with
  | nil => simp [programFrom, Except.bind]
  | cons line before ih =>
      simp only [List.cons_append, programFrom]
      cases readLine line with
      | error complaint => rfl
      | ok ss => simp only [ih, List.length_cons, Nat.add_right_comm, Nat.add_assoc]

/-- The lines before the one that is reported are read, and that one is reported for itself. -/
theorem programFrom_eq_error_iff {lines : List (List Char)} {done : Program} {n : Nat}
    {fault : SyntaxFault} :
    programFrom done n lines = .error fault ↔
      ∃ before line after, lines = before ++ line :: after ∧ fault.line = n + before.length ∧
        (∀ earlier ∈ before, ∃ ss, readLine earlier = .ok ss) ∧
        readLine line = .error fault.complaint := by
  induction lines generalizing done n with
  | nil => simp [programFrom]
  | cons first lines ih =>
      simp only [programFrom]
      cases hfirst : readLine first with
      | error complaint =>
          constructor
          · rintro h
            cases h
            exact ⟨[], first, lines, rfl, rfl, nofun, hfirst⟩
          · rintro ⟨before, line, after, hlines, hnumber, hbefore, hline⟩
            cases before with
            | nil =>
                obtain ⟨rfl, rfl⟩ := List.cons.inj hlines
                cases hfirst.symm.trans hline
                rw [← show fault.line = n from hnumber]
            | cons earlier before =>
                obtain ⟨rfl, rfl⟩ := List.cons.inj hlines
                obtain ⟨ss, hread⟩ := hbefore first List.mem_cons_self
                cases hfirst.symm.trans hread
      | ok ss =>
          rw [ih]
          constructor
          · rintro ⟨before, line, after, rfl, hnumber, hbefore, hline⟩
            refine ⟨first :: before, line, after, rfl, ?_, ?_, hline⟩
            · rw [hnumber, List.length_cons]
              omega
            · exact List.forall_mem_cons.2 ⟨⟨ss, hfirst⟩, hbefore⟩
          · rintro ⟨before, line, after, hlines, hnumber, hbefore, hline⟩
            cases before with
            | nil =>
                obtain ⟨rfl, rfl⟩ := List.cons.inj hlines
                cases hfirst.symm.trans hline
            | cons earlier before =>
                obtain ⟨rfl, rfl⟩ := List.cons.inj hlines
                refine ⟨before, line, after, rfl, ?_, fun e he => ?_, hline⟩
                · rw [hnumber, List.length_cons]
                  omega
                · exact hbefore e (List.mem_cons_of_mem _ he)

/-- A source is read as a program just if the grammar has it, within the limits of every line, and
the program is the one that the grammar gives. -/
theorem programOfSource_eq_ok_iff (source : List Char) (p : Program) :
    programOfSource source = .ok p ↔ ProgramDerives source p := by
  simp only [programOfSource, programFrom_eq_ok_iff]
  constructor
  · rintro ⟨q, rfl, h⟩
    exact ⟨Text.lines source, splitsLines_lines source, h⟩
  · rintro ⟨lines, hlines, h⟩
    exact ⟨p, rfl, hlines.eq_lines ▸ h⟩

end Script
end CodeSessions
