import CodeSessions.Proofs.Script.Source

/-!
# Line by line — a source is read as its lines are

No line has a say in how another one is read.

- `SplitsLines.append`: behind a line feed, the lines of a source go on with those of the rest,
- `programFrom_lower`: lines that stand further down are read as the same lines at the start, with
  other numbers,
- `programOfSource_line`: what becomes of a line that is a source of its own,
- `read_line_by_line`.
-/

namespace CodeSessions
namespace Script

/-- The same statement, `k` lines further down. -/
def Located.lower (k : Nat) (l : Located) : Located :=
  ⟨l.line + k, l.statement⟩

/-- The same fault, `k` lines further down. -/
def SyntaxFault.lower (k : Nat) (fault : SyntaxFault) : SyntaxFault :=
  ⟨fault.line + k, fault.complaint⟩

/-! ## Lines -/

/-- What follows such a text starts a line of its own. -/
def EndsLine (s : List Char) : Prop :=
  s = [] ∨ s.getLast? = some '\n'

theorem EndsLine.of_append {line rest : List Char} (h : EndsLine (line ++ '\n' :: rest)) :
    EndsLine rest := by
  cases rest with
  | nil => exact .inl rfl
  | cons c rest =>
      rcases h with hnil | hlast
      · simp at hnil
      · exact .inr (by simpa using hlast)

theorem SplitsLines.append {s t : List Char} {lines more : List (List Char)}
    (h : SplitsLines s lines) (hs : EndsLine s) (ht : SplitsLines t more) :
    SplitsLines (s ++ t) (lines ++ more) := by
  induction h with
  | nil => exact ht
  | last hne hline =>
      -- the line would hold the line feed that it ends with
      rcases hs with hnil | hlast
      · exact absurd hnil hne
      · exact absurd (List.mem_of_getLast? hlast) hline
  | lineFeed hline hlast _ ih =>
      simpa using SplitsLines.lineFeed hline hlast (ih hs.of_append)
  | @carriageReturn line rest lines hline _ ih =>
      have hrest : EndsLine ((line ++ ['\r']) ++ '\n' :: rest) := by simpa using hs
      simpa using SplitsLines.carriageReturn hline (ih hrest.of_append)

/-- Every line but the last ends with a line feed, and has no other. -/
theorem SplitsLines.length_eq {s : List Char} {lines : List (List Char)} (h : SplitsLines s lines)
    (hs : EndsLine s) : lines.length = s.count '\n' := by
  induction h with
  | nil => rfl
  | last hne hline =>
      rcases hs with hnil | hlast
      · exact absurd hnil hne
      · exact absurd (List.mem_of_getLast? hlast) hline
  | lineFeed hline _ _ ih =>
      simp [ih hs.of_append, List.count_eq_zero_of_not_mem hline]
  | @carriageReturn line rest lines hline _ ih =>
      have hrest : EndsLine ((line ++ ['\r']) ++ '\n' :: rest) := by simpa using hs
      simp [ih hrest.of_append, List.count_eq_zero_of_not_mem hline]

/-! ## Programs of lines -/

/-- Lines that stand further down have other numbers, and nothing else is different. -/
theorem programFrom_lower (k : Nat) (lines : List (List Char)) (acc done : Program) (n : Nat) :
    programFrom (acc.map (Located.lower k) ++ done) (n + k) lines =
      match programFrom acc n lines with
      | .error fault => .error (fault.lower k)
      | .ok p => .ok (done.reverse ++ p.map (Located.lower k)) := by
  induction lines generalizing acc n with
  | nil => simp [programFrom]
  | cons line lines ih =>
      simp only [programFrom]
      cases readLine line with
      | error complaint => rfl
      | ok ss =>
          have hacc : ss.foldl (fun ps s => ⟨n + k, s⟩ :: ps) (acc.map (Located.lower k) ++ done) =
              (ss.foldl (fun ps s => ⟨n, s⟩ :: ps) acc).map (Located.lower k) ++ done := by
            simp [Located.lower]
          simp only [hacc, ← ih, Nat.add_right_comm]

/-! ## Single lines -/

theorem readLine_nil : readLine [] = .ok [] := by
  rw [readLine, ofLine_nil]
  rfl

/-- A line that is a whole source is line number one. -/
theorem programOfSource_line {line : List Char} (h : '\n' ∉ line) :
    programOfSource line =
      match readLine line with
      | .error complaint => .error ⟨1, complaint⟩
      | .ok ss => .ok (ss.map fun s => ⟨1, s⟩) := by
  by_cases hnil : line = []
  · subst hnil
    rw [readLine_nil]
    rfl
  · rw [programOfSource, (SplitsLines.last hnil h).eq_lines, programFrom]
    cases readLine line with
    | error complaint => rfl
    | ok ss => simp [programFrom]

theorem programOfSource_line_eq_error_iff {line : List Char} (h : '\n' ∉ line)
    {complaint : Complaint} :
    programOfSource line = .error ⟨1, complaint⟩ ↔ readLine line = .error complaint := by
  rw [programOfSource_line h]
  cases readLine line <;> simp

theorem exists_programOfSource_line_iff {line : List Char} (h : '\n' ∉ line) :
    (∃ p, programOfSource line = .ok p) ↔ ∃ ss, readLine line = .ok ss := by
  rw [programOfSource_line h]
  cases readLine line <;> simp

theorem SplitsLines.lineFeed_not_mem {s : List Char} {lines : List (List Char)}
    (h : SplitsLines s lines) : ∀ line ∈ lines, '\n' ∉ line := by
  induction h with
  | nil => nofun
  | last _ hline => simpa using hline
  | lineFeed hline _ _ ih | carriageReturn hline _ ih => exact List.forall_mem_cons.2 ⟨hline, ih⟩

/-! ## Line numbers -/

theorem LinesDerive.numbers {n : Nat} {lines : List (List Char)} {p : Program}
    (h : LinesDerive n lines p) :
    (∀ l ∈ p, n ≤ l.line) ∧ p.Pairwise fun l m => l.line ≤ m.line := by
  induction h with
  | nil n => exact ⟨nofun, .nil⟩
  | @cons n line lines ts ss depth count p _ _ _ _ _ ih =>
      have hline : ∀ l ∈ ss.map fun s => Located.mk n s, l.line = n :=
        List.forall_mem_map.2 fun s _ => rfl
      constructor
      · intro l hl
        rcases List.mem_append.1 hl with hl | hl
        · exact (hline l hl).ge
        · exact Nat.le_of_succ_le (ih.1 l hl)
      · refine List.pairwise_append.2 ⟨?_, ih.2, fun l hl m hm => ?_⟩
        · refine List.pairwise_of_forall_mem_list fun l hl m hm => ?_
          rw [hline l hl, hline m hm]
        · rw [hline l hl]
          exact Nat.le_of_succ_le (ih.1 m hm)

/-! ## Sources -/

/-- A source is read in parts wherever a line ends: the second part is read as if it stood alone,
and its lines are counted on from those of the first.  The line that is reported is the first that
cannot be read as a source of its own, and it is reported for what is wrong with it alone.
Statements are in the order of their lines. -/
theorem read_line_by_line {s : List Char} (hs : EndsLine s) (t : List Char) :
    (programOfSource (s ++ t) =
      match programOfSource s with
      | .error fault => .error fault
      | .ok p =>
          match programOfSource t with
          | .error fault => .error (fault.lower (s.count '\n'))
          | .ok q => .ok (p ++ q.map (Located.lower (s.count '\n')))) ∧
    (∀ source n complaint, programOfSource source = .error ⟨n, complaint⟩ ↔
      ∃ before line after, SplitsLines source (before ++ line :: after) ∧ n = 1 + before.length ∧
        (∀ earlier ∈ before, ∃ p, programOfSource earlier = .ok p) ∧
        programOfSource line = .error ⟨1, complaint⟩) ∧
    ∀ source p, programOfSource source = .ok p → p.Pairwise fun l m => l.line ≤ m.line := by
  refine ⟨?_, fun source n complaint => ?_, fun source p hp => ?_⟩
  · have hlines := (splitsLines_lines s).append hs (splitsLines_lines t)
    have hcount := (splitsLines_lines s).length_eq hs
    rw [programOfSource, hlines.eq_lines, programFrom_append_eq, hcount, programOfSource,
      programOfSource]
    cases programFrom [] 1 (Text.lines s) with
    | error fault => rfl
    | ok p =>
        have hlower := programFrom_lower (s.count '\n') (Text.lines t) [] p.reverse 1
        simp only [List.map_nil, List.nil_append, List.reverse_reverse] at hlower
        exact hlower
  · have hlines := splitsLines_lines source
    rw [programOfSource, programFrom_eq_error_iff]
    constructor
    · rintro ⟨before, line, after, heq, hnumber, hbefore, hline⟩
      rw [heq] at hlines
      have hfree := hlines.lineFeed_not_mem
      refine ⟨before, line, after, hlines, hnumber, fun earlier hearlier => ?_, ?_⟩
      · exact (exists_programOfSource_line_iff (hfree earlier (List.mem_append_left _ hearlier))).2
          (hbefore earlier hearlier)
      · exact (programOfSource_line_eq_error_iff (hfree line (by simp))).2 hline
    · rintro ⟨before, line, after, hsplit, hnumber, hbefore, hline⟩
      have hfree := hsplit.lineFeed_not_mem
      refine ⟨before, line, after, hsplit.eq_lines, hnumber, fun earlier hearlier => ?_, ?_⟩
      · exact (exists_programOfSource_line_iff (hfree earlier (List.mem_append_left _ hearlier))).1
          (hbefore earlier hearlier)
      · exact (programOfSource_line_eq_error_iff (hfree line (by simp))).1 hline
  · obtain ⟨q, rfl, hq⟩ := programFrom_eq_ok_iff.1 hp
    exact hq.numbers.2

/-- Two lines, one of them blank, and then a third one. -/
theorem read_line_by_line_third :
    EndsLine "a = 1\r\n\n".toList ∧
      programOfSource "a = 1\r\n\n".toList = .ok [⟨1, .assign "a" (.literal (.int 1))⟩] ∧
      programOfSource "print a".toList = .ok [⟨1, .print [.name "a"] true⟩] ∧
      programOfSource ("a = 1\r\n\n".toList ++ "print a".toList) =
        .ok [⟨1, .assign "a" (.literal (.int 1))⟩, ⟨3, .print [.name "a"] true⟩] := by
  have hends : EndsLine "a = 1\r\n\n".toList := .inr (by decide)
  have hfirst : programOfSource "a = 1\r\n\n".toList =
      .ok [⟨1, .assign "a" (.literal (.int 1))⟩] := by
    have hlines : Text.lines "a = 1\r\n\n".toList = ["a = 1".toList, []] := by decide +kernel
    have htokens : Token.ofLine "a = 1".toList = [.name "a", .assign, .literal (.int 1)] := by
      decide +kernel
    simp only [programOfSource, hlines, programFrom, readLine, htokens, ofLine_nil]
    rfl
  have hsecond : programOfSource "print a".toList = .ok [⟨1, .print [.name "a"] true⟩] := by
    have hlines : Text.lines "print a".toList = ["print a".toList] := by decide +kernel
    have htokens : Token.ofLine "print a".toList = [.print, .name "a"] := by decide +kernel
    simp only [programOfSource, hlines, programFrom, readLine, htokens]
    rfl
  have hwhole := (read_line_by_line hends "print a".toList).1
  rw [hfirst, hsecond] at hwhole
  exact ⟨hends, hfirst, hsecond, hwhole⟩

end Script
end CodeSessions
