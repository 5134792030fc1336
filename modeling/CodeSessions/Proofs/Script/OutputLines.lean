import CodeSessions.Proofs.Script.Completed

/-!
# Output lines — what a run prints

The text of a run is put together print by print, with a flag for an open output line.  Seen as a
whole, it consists of lines of values.

- `written spaced prints`: the text of prints in order, which a run writes (`onTranscript_run`),
- `Grouped prints closed last`: the prints fall into closed lines and a last line that is left open,
- `Grouped.written_eq`: each line has its values with single spaces between them,
- `output_by_lines`.
-/

namespace CodeSessions

theorem Transcript.write_append (output : Transcript) (s t : String) :
    output.write (s ++ t).toUTF8 = (output.write s.toUTF8).write t.toUTF8 := by
  simp [write, ByteArray.append_assoc]

namespace Script

variable {env : Bindings}

/-! ## The text of prints -/

def prints (cs : List Completed) : List Print :=
  cs.filterMap fun
    | .printed print => some print
    | .assigned _ _ | .evaluated _ => none

theorem mem_prints_iff {print : Print} {cs : List Completed} :
    print ∈ prints cs ↔ .printed print ∈ cs := by
  rw [prints, List.mem_filterMap]
  constructor
  · rintro ⟨c, hc, hprint⟩
    cases c with
    | printed print' =>
        cases hprint
        exact hc
    | assigned target value => cases hprint
    | evaluated value => cases hprint
  · intro hc
    exact ⟨_, hc, rfl⟩

theorem prints_append (cs ds : List Completed) : prints (cs ++ ds) = prints cs ++ prints ds :=
  List.filterMap_append

def written (spaced : Bool) : List Print → String
  | [] => ""
  | print :: rest => print.text spaced ++ written (print.leavesOpen spaced) rest

def openAfter (spaced : Bool) : List Print → Bool
  | [] => spaced
  | print :: rest => openAfter (print.leavesOpen spaced) rest

theorem written_append (spaced : Bool) (before after : List Print) :
    written spaced (before ++ after) =
      written spaced before ++ written (openAfter spaced before) after := by
  induction before generalizing spaced with
  | nil => simp [written, openAfter]
  | cons print rest ih => simp only [List.cons_append, written, openAfter, ih, String.append_assoc]

theorem openAfter_append (spaced : Bool) (before after : List Print) :
    openAfter spaced (before ++ after) = openAfter (openAfter spaced before) after := by
  induction before generalizing spaced with
  | nil => rfl
  | cons print rest ih => simp only [List.cons_append, openAfter, ih]

theorem effectsOf_append (spaced : Bool) (cs ds : List Completed) :
    effectsOf spaced (cs ++ ds) =
      effectsOf spaced cs ++ effectsOf (openAfter spaced (prints cs)) ds := by
  induction cs generalizing spaced with
  | nil => rfl
  | cons c rest ih =>
      rw [List.cons_append, effectsOf, effectsOf, ih, List.append_assoc]
      cases c <;> rfl

/-- What a completed statement does stands behind the effects of those before it. -/
theorem exists_effects_run {p : Program} {k : Nat} {c : Completed}
    (h : (completed env p)[k]? = some c) :
    ∃ later, (run p env).effects = (run (p.take k) env).effects ++
      ((c.effect? (openAfter false (prints (completed env (p.take k))))).toList ++ later) := by
  have hsplit : completed env p =
      completed env (p.take k) ++ c :: (completed env p).drop (k + 1) := by
    obtain ⟨hk, rfl⟩ := List.getElem?_eq_some_iff.1 h
    rw [completed_take, List.getElem_cons_drop, List.take_append_drop]
  rw [effects_run p, effects_run (p.take k), hsplit, effectsOf_append]
  exact ⟨_, rfl⟩

theorem onTranscript_effectsOf (spaced : Bool) (cs : List Completed) (output : Transcript) :
    (effectsOf spaced cs).foldl Effect.onTranscript output =
      output.write (written spaced (prints cs)).toUTF8 := by
  induction cs generalizing spaced output with
  | nil => simp [effectsOf, prints, written, Transcript.write]
  | cons c rest ih =>
      rw [effectsOf, List.foldl_append, ih]
      cases c with
      | printed print => exact (Transcript.write_append _ _ _).symm
      | assigned target value => rfl
      | evaluated value => rfl

theorem onTranscript_run (p : Program) (output : Transcript) :
    (run p env).effects.foldl Effect.onTranscript output =
      output.write (written false (prints (completed env p))).toUTF8 := by
  rw [effects_run, onTranscript_effectsOf]

/-! ## Rows of values -/

theorem row_append (spaced : Bool) (vs ws : List Value) :
    row spaced (vs ++ ws) = row spaced vs ++ row (spaced || !vs.isEmpty) ws := by
  induction vs generalizing spaced with
  | nil => simp [row]
  | cons v vs ih =>
      simp only [List.cons_append, row, ih, String.append_assoc]
      simp

theorem row_true (v : Value) (vs : List Value) :
    row true (v :: vs) = " " ++ row false (v :: vs) := by
  simp [row, String.append_assoc]

theorem row_false (vs : List Value) : row false vs = " ".intercalate (vs.map Value.display) := by
  induction vs with
  | nil => simp [row]
  | cons v vs ih =>
      cases vs with
      | nil => simp [row]
      | cons w ws =>
          rw [List.map_cons, String.intercalate_cons_of_ne_nil (by simp), ← ih]
          simp [row, String.append_assoc]

/-! ## Lines -/

/-- The values of all prints of a line with single spaces between them. -/
def lineText (line : List Print) : String :=
  " ".intercalate ((line.flatMap Print.values).map Value.display)

/-- Each closed line ends with its first print that has a newline, and the prints after the last of
these are on a line that is left open. -/
inductive Grouped : List Print → List (List Print) → List Print → Prop
  | last {last : List Print} : (∀ print ∈ last, print.newline = false) → Grouped last [] last
  | line {before rest last : List Print} {print : Print} {closed : List (List Print)} :
      (∀ earlier ∈ before, earlier.newline = false) → print.newline = true →
      Grouped rest closed last →
      Grouped (before ++ print :: rest) ((before ++ [print]) :: closed) last

theorem exists_grouped (ps : List Print) : ∃ closed last, Grouped ps closed last := by
  induction ps with
  | nil => exact ⟨[], [], .last nofun⟩
  | cons print rest ih =>
      obtain ⟨closed, last, hrest⟩ := ih
      cases hnewline : print.newline with
      | true => exact ⟨[print] :: closed, last, @Grouped.line [] _ _ _ _ nofun hnewline hrest⟩
      | false =>
          cases hrest with
          | last hlast =>
              exact ⟨[], print :: rest, .last (List.forall_mem_cons.2 ⟨hnewline, hlast⟩)⟩
          | @line before _ _ _ _ hbefore hend hrest =>
              have hline : ∀ earlier ∈ print :: before, earlier.newline = false :=
                List.forall_mem_cons.2 ⟨hnewline, hbefore⟩
              exact ⟨_, last, @Grouped.line (print :: before) _ _ _ _ hline hend hrest⟩

theorem takeWhile_of_newline {before : List Print} {print : Print}
    (hbefore : ∀ earlier ∈ before, earlier.newline = false) (hprint : print.newline = true)
    (rest : List Print) :
    (before ++ print :: rest).takeWhile (fun earlier => !earlier.newline) = before := by
  have hall : ∀ earlier ∈ before, (!earlier.newline) = true :=
    fun earlier hmem => by simp [hbefore earlier hmem]
  rw [List.takeWhile_append_of_pos hall]
  simp [hprint]

/-- There is one way only to group prints. -/
theorem Grouped.unique {ps last last' : List Print} {closed closed' : List (List Print)}
    (h : Grouped ps closed last) (h' : Grouped ps closed' last') :
    closed' = closed ∧ last' = last := by
  induction h generalizing closed' last' with
  | last hlast =>
      cases h' with
      | last _ => exact ⟨rfl, rfl⟩
      | line _ hprint' _ =>
          have hnewline := hlast _ (List.mem_append_right _ List.mem_cons_self)
          rw [hprint'] at hnewline
          cases hnewline
  | @line before rest last print closed hbefore hprint _ ih =>
      generalize hps : before ++ print :: rest = ps at h'
      cases h' with
      | last hlast' =>
          have hnewline := hlast' print (hps ▸ List.mem_append_right _ List.mem_cons_self)
          rw [hprint] at hnewline
          cases hnewline
      | line hbefore' hprint' hrest' =>
          -- both first lines end with the first newline of all
          have heq := takeWhile_of_newline hbefore hprint rest
          rw [hps, takeWhile_of_newline hbefore' hprint'] at heq
          subst heq
          obtain ⟨rfl, rfl⟩ := List.cons.inj (List.append_cancel_left hps)
          obtain ⟨rfl, rfl⟩ := ih hrest'
          exact ⟨rfl, rfl⟩

theorem written_of_open {line : List Print} (h : ∀ print ∈ line, print.newline = false)
    (spaced : Bool) :
    written spaced line = row spaced (line.flatMap Print.values) ∧
      openAfter spaced line = (spaced || !(line.flatMap Print.values).isEmpty) := by
  induction line generalizing spaced with
  | nil => simp [written, openAfter, row]
  | cons print rest ih =>
      obtain ⟨hprint, hrest⟩ := List.forall_mem_cons.1 h
      obtain ⟨hwritten, hopen⟩ := ih hrest (print.leavesOpen spaced)
      have hleaves : print.leavesOpen spaced = (spaced || !print.values.isEmpty) := by
        simp [Print.leavesOpen, hprint]
      rw [written, openAfter, hwritten, hopen, hleaves, List.flatMap_cons, row_append, Print.text,
        hprint]
      constructor
      · simp
      · cases spaced <;> cases print.values <;> simp

theorem lineText_eq_row (line : List Print) :
    lineText line = row false (line.flatMap Print.values) :=
  (row_false _).symm

theorem written_closed {before : List Print} {print : Print}
    (hbefore : ∀ earlier ∈ before, earlier.newline = false) (hprint : print.newline = true)
    (rest : List Print) :
    written false (before ++ print :: rest) =
      lineText (before ++ [print]) ++ "\n" ++ written false rest := by
  obtain ⟨hwritten, hopen⟩ := written_of_open hbefore false
  have hclosed : ∀ spaced, print.leavesOpen spaced = false := fun spaced => by
    simp [Print.leavesOpen, hprint]
  have hline : lineText (before ++ [print]) =
      row false (before.flatMap Print.values) ++
        row (false || !(before.flatMap Print.values).isEmpty) print.values := by
    rw [lineText_eq_row, List.flatMap_append, row_append]
    simp
  rw [written_append, hwritten, hopen, written, hclosed, Print.text, hprint, hline]
  simp only [if_true, String.append_assoc]

/-- Every line has its values with single spaces between them, and every closed one a newline. -/
theorem Grouped.written_eq {ps last : List Print} {closed : List (List Print)}
    (h : Grouped ps closed last) :
    written false ps =
      String.join (closed.map fun line => lineText line ++ "\n") ++ lineText last := by
  induction h with
  | last hlast => simpa [lineText_eq_row] using (written_of_open hlast false).1
  | line hbefore hprint _ ih =>
      rw [written_closed hbefore hprint, ih, List.map_cons, String.join_cons]
      simp only [String.append_assoc]

/-- The output of a run: its completed prints fall into lines in one way, and every line shows the
values of its prints in order with single spaces between them, and a newline if it is closed.  A
`print` without items closes its line and adds nothing else to it. -/
theorem output_by_lines (p : Program) (env : Bindings) (output : Transcript) :
    (∃ closed last, Grouped (prints (completed env p)) closed last ∧
      (∀ closed' last', Grouped (prints (completed env p)) closed' last' →
        closed' = closed ∧ last' = last) ∧
      (run p env).effects.foldl Effect.onTranscript output =
        output.write
          (String.join (closed.map fun line => lineText line ++ "\n") ++ lineText last).toUTF8) ∧
    ((run p env).fault = none → ∀ n q,
      (run (p ++ ⟨n, .print [] true⟩ :: q) env).effects.foldl Effect.onTranscript output =
        (run q ((run p env).bindings env)).effects.foldl Effect.onTranscript
          (((run p env).effects.foldl Effect.onTranscript output).write "\n".toUTF8)) := by
  constructor
  · obtain ⟨closed, last, hgrouped⟩ := exists_grouped (prints (completed env p))
    refine ⟨closed, last, hgrouped, fun _ _ h => hgrouped.unique h, ?_⟩
    rw [onTranscript_run, hgrouped.written_eq]
  · intro hfault n q
    have hcompleted : completed env (p ++ ⟨n, .print [] true⟩ :: q) =
        completed env p ++ .printed ⟨[], true⟩ :: completed ((run p env).bindings env) q :=
      completed_append hfault _
    have hwritten : written false (prints (completed env (p ++ ⟨n, .print [] true⟩ :: q))) =
        written false (prints (completed env p)) ++ ("\n" ++
          written false (prints (completed ((run p env).bindings env) q))) := by
      rw [hcompleted, prints_append, written_append]
      rfl
    simp only [onTranscript_run, hwritten, Transcript.write_append]

/-- A line of two prints with an assignment between them, a line that is left open and closed by the
next `print`, and a `print` that faults. -/
theorem output_by_lines_open_closed :
    let p : Program := [⟨1, .print [.literal (.text "a")] false⟩,
      ⟨2, .assign "x" (.literal (.int 1))⟩, ⟨3, .print [.name "x", .literal (.text "b")] true⟩,
      ⟨4, .print [.literal .none] false⟩]
    let q : Program := [⟨6, .print [.name "x"] false⟩, ⟨7, .print [.name "y"] true⟩]
    (run p .empty).fault = none ∧
    Grouped (prints (completed .empty p))
      [[⟨[.text "a"], false⟩, ⟨[.int 1, .text "b"], true⟩]] [⟨[.none], false⟩] ∧
    (run p .empty).transcript = Transcript.empty.write "a 1 b\nNone".toUTF8 ∧
    (run (p ++ ⟨5, .print [] true⟩ :: q) .empty).transcript =
      Transcript.empty.write "a 1 b\nNone\n1".toUTF8 := by
  intro p q
  have hfault : (run p .empty).fault = none := by
    simp only [p, run, runFrom, Stmt.run, renderItems, eval]
    rfl
  have hprints : prints (completed .empty p) =
      [⟨[.text "a"], false⟩, ⟨[.int 1, .text "b"], true⟩, ⟨[.none], false⟩] := by
    simp only [p, completed, Stmt.evaluate, List.mapM_cons, eval]
    rfl
  have hgrouped : Grouped (prints (completed .empty p))
      [[⟨[.text "a"], false⟩, ⟨[.int 1, .text "b"], true⟩]] [⟨[.none], false⟩] := by
    rw [hprints]
    exact @Grouped.line [⟨[.text "a"], false⟩] [⟨[.none], false⟩] _ ⟨[.int 1, .text "b"], true⟩ _
      (by simp) rfl (.last (by simp))
  have hbindings : (run p .empty).bindings .empty = Table.empty.set "x" (.int 1) := by
    simp only [p, run, runFrom, Stmt.run, renderItems, eval]
    rfl
  have heffects : (run q (Table.empty.set "x" (.int 1))).effects = [.write "1".toUTF8] := by
    simp only [q, run, runFrom, Stmt.run, renderItems, eval]
    rfl
  obtain ⟨⟨closed, last, -, hunique, houtput⟩, hnext⟩ := output_by_lines p .empty .empty
  obtain ⟨rfl, rfl⟩ := hunique _ _ hgrouped
  have hwhole := hnext hfault 5 q
  rw [houtput, hbindings, heffects, ← Transcript.write_append] at hwhole
  exact ⟨hfault, hgrouped, houtput, hwhole⟩

end Script
end CodeSessions
