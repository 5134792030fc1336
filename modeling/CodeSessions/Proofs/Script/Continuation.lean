import CodeSessions.Proofs.Script.OutputLines

/-!
# Continuations — a program carried out in two runs

What a program does is what its first part does, and then its second part on the bindings that are
left.  Only the output can tell: a run starts on a new output line, so the space is missing that the
second part writes behind an open line.

- `endsOpen`, `startsWithItem`: the prints before and after the cut that make for a space,
- `items_ne_nil_of_source`: a `print` that is read from a source and leaves its line open has items,
- `run_in_two_parts`.
-/

namespace CodeSessions
namespace Script

variable {env : Bindings}

/-! ## Statements of sources -/

theorem items_ne_nil_of_source {source : List Char} {p : Program}
    (hp : programOfSource source = .ok p) {l : Located} (hl : l ∈ p) {items : List Expr}
    (hs : l.statement = .print items false) : items ≠ [] := by
  obtain ⟨q, rfl, hlines⟩ := programFrom_eq_ok_iff.1 hp
  obtain ⟨us, depth, count, hderives, -, -⟩ := hlines.exists_of_mem hl
  rw [hs] at hderives
  cases hderives with
  | printOpen hitems =>
      obtain ⟨item, rest, rfl⟩ := hitems.exists_cons
      exact List.cons_ne_nil item rest

/-! ## Prints that leave a line open -/

/-- A `print` that leaves its line open shows something. -/
def Print.Shows (print : Print) : Prop :=
  print.newline = false → print.values ≠ []

theorem shows_of_source {source : List Char} {p : Program} (hp : programOfSource source = .ok p)
    (env : Bindings) : ∀ print ∈ prints (completed env p), print.Shows := by
  intro print hmem hnewline hvalues
  obtain ⟨l, hl, env', hevaluate⟩ := mem_completed (mem_prints_iff.1 hmem)
  obtain ⟨_, _, _, -, -, h⟩ | ⟨items, newline, values, hs, hitems, h⟩ | ⟨_, _, -, -, h⟩ :=
    Stmt.evaluate_cases hevaluate
  · cases h
  · cases h
    cases hnewline
    cases hvalues
    cases items with
    | nil => exact items_ne_nil_of_source hp hl hs rfl
    | cons item items =>
        rw [List.mapM_cons] at hitems
        obtain ⟨_, -, hitems⟩ := ok_of_bind_eq_ok hitems
        obtain ⟨_, -, hitems⟩ := ok_of_bind_eq_ok hitems
        cases hitems
  · cases h

/-! ## The space between two parts -/

def endsOpen (ps : List Print) : Bool :=
  ps.getLast?.any fun print => !print.newline

def startsWithItem (ps : List Print) : Bool :=
  ps.head?.any fun print => !print.values.isEmpty

theorem openAfter_eq_endsOpen {ps : List Print} (h : ∀ print ∈ ps, print.Shows) :
    openAfter false ps = endsOpen ps := by
  rcases List.eq_nil_or_concat ps with rfl | ⟨before, print, rfl⟩
  · rfl
  · have hshows : print.Shows := h print (by simp)
    rw [List.concat_eq_append, openAfter_append]
    cases hnewline : print.newline with
    | true => simp [openAfter, endsOpen, Print.leavesOpen, hnewline]
    | false => simp [openAfter, endsOpen, Print.leavesOpen, hnewline, hshows hnewline]

theorem written_true {ps : List Print} (h : ∀ print ∈ ps, print.Shows) :
    written true ps = (if startsWithItem ps then " " else "") ++ written false ps := by
  cases ps with
  | nil => simp [written, startsWithItem]
  | cons print rest =>
      cases hvalues : print.values with
      | nil =>
          have hnewline : print.newline = true := by
            by_contra hnewline
            exact h print List.mem_cons_self (by simpa using hnewline) hvalues
          simp [written, startsWithItem, hvalues, Print.text, Print.leavesOpen, hnewline, row]
      | cons v vs =>
          simp [written, startsWithItem, hvalues, Print.text, Print.leavesOpen, row_true,
            String.append_assoc]

/-! ## Two runs -/

/-- Nothing comes after a fault. -/
theorem run_append_of_fault {p : Program} {message : String}
    (h : (run p env).fault = some message) (q : Program) : run (p ++ q) env = run p env := by
  obtain ⟨k, l, f, hat⟩ := exists_faultsAt h
  have hparts : p.take (k + 1) ++ (p.drop (k + 1) ++ q) = p ++ q := by
    rw [← List.append_assoc, List.take_append_drop]
  rw [← hparts, hat.run_take_append, hat.run_eq]

theorem written_append_eq {ps qs : List Print} (hps : ∀ print ∈ ps, print.Shows)
    (hqs : ∀ print ∈ qs, print.Shows) :
    written false (ps ++ qs) =
      written false ps ++ (if endsOpen ps ∧ startsWithItem qs then " " else "") ++
        written false qs := by
  rw [written_append, openAfter_eq_endsOpen hps]
  cases endsOpen ps with
  | true => simp [written_true hqs, String.append_assoc]
  | false => simp

theorem bytes_transcript (p : Program) (env : Bindings) :
    (run p env).transcript.bytes = (written false (prints (completed env p))).toUTF8 := by
  rw [Evaluation.transcript, onTranscript_run]
  simp [Transcript.write, Transcript.empty]

/-- A program in two parts, as they are read from sources.  If the first part faults, that is all.
Else the second part, run on the bindings that the first leaves, makes the same bindings and has the
same fault as in the whole program, and there the output is the same but for a space in between. -/
theorem run_in_two_parts {source source' : String} {p q : Program}
    (hp : programOfSource source.toList = .ok p) (hq : programOfSource source'.toList = .ok q)
    (env : Bindings) :
    let first := run p env
    let middle := first.bindings env
    let second := run q middle
    let whole := run (p ++ q) env
    (∀ message, first.fault = some message → whole = first) ∧
    (first.fault = none →
      whole.bindings env = second.bindings middle ∧ whole.fault = second.fault ∧
      whole.transcript.bytes = first.transcript.bytes ++
        (if endsOpen (prints (completed env p)) ∧ startsWithItem (prints (completed middle q)) then
          " " else "").toUTF8 ++
        second.transcript.bytes) := by
  intro first middle second whole
  constructor
  · intro message hmessage
    exact run_append_of_fault hmessage q
  · intro hfault
    have hcompleted : completed env (p ++ q) = completed env p ++ completed middle q :=
      completed_append hfault q
    refine ⟨?_, fault_append hfault q, ?_⟩
    · rw [bindings_run, hcompleted, List.foldl_append, ← bindings_run, ← bindings_run]
    · have hwritten := written_append_eq (shows_of_source hp env) (shows_of_source hq middle)
      rw [bytes_transcript, bytes_transcript, bytes_transcript, hcompleted, prints_append, hwritten]
      simp

/-- The second part writes on the line that the first leaves open, after an assignment. -/
theorem run_in_two_parts_spaced :
    let p : Program := [⟨1, .print [.literal (.int 1)] false⟩]
    let q : Program := [⟨1, .assign "x" (.literal (.int 2))⟩, ⟨2, .print [.name "x"] true⟩]
    programOfSource "print 1,".toList = .ok p ∧ programOfSource "x = 2\nprint x".toList = .ok q ∧
    (run p .empty).fault = none ∧
    (run (p ++ q) .empty).bindings .empty = Table.empty.set "x" (.int 2) ∧
    (run (p ++ q) .empty).fault = none ∧
    (run (p ++ q) .empty).transcript.bytes = "1 2\n".toUTF8 := by
  intro p q
  have hp : programOfSource "print 1,".toList = .ok p := by
    have hlines : Text.lines "print 1,".toList = ["print 1,".toList] := by decide +kernel
    have htokens : Token.ofLine "print 1,".toList = [.print, .literal (.int 1), .comma] := by
      decide +kernel
    simp only [programOfSource, hlines, programFrom, readLine, htokens]
    rfl
  have hq : programOfSource "x = 2\nprint x".toList = .ok q := by
    have hlines : Text.lines "x = 2\nprint x".toList = ["x = 2".toList, "print x".toList] := by
      decide +kernel
    have hassign : Token.ofLine "x = 2".toList = [.name "x", .assign, .literal (.int 2)] := by
      decide +kernel
    have hprint : Token.ofLine "print x".toList = [.print, .name "x"] := by decide +kernel
    simp only [programOfSource, hlines, programFrom, readLine, hassign, hprint]
    rfl
  have hfirst : run p .empty = ⟨[.write "1".toUTF8], none⟩ := by
    simp only [p, run, runFrom, Stmt.run, renderItems, eval]
    rfl
  have hsecond : run q .empty = ⟨[.bind "x" (.int 2), .write "2\n".toUTF8], none⟩ := by
    simp only [q, run, runFrom, Stmt.run, renderItems, eval]
    rfl
  have hfault : (run p .empty).fault = none := by rw [hfirst]
  obtain ⟨hbindings, hnone, houtput⟩ := (run_in_two_parts hp hq .empty).2 hfault
  have hends : endsOpen (prints (completed .empty p)) = true := by
    simp only [p, completed, Stmt.evaluate, List.mapM_cons, eval]
    rfl
  have hstarts : startsWithItem (prints (completed .empty q)) = true := by
    simp only [q, completed, Stmt.evaluate, List.mapM_cons, eval]
    rfl
  have hmiddle : (run p .empty).bindings .empty = .empty := by rw [hfirst]; rfl
  rw [hmiddle] at hbindings hnone houtput
  rw [hends, hstarts, hfirst, hsecond] at houtput
  rw [hsecond] at hbindings hnone
  exact ⟨hp, hq, hfault, hbindings, hnone, houtput⟩

end Script
end CodeSessions
