import CodeSessions.Proofs.Script.Continuation
import CodeSessions.Proofs.Text.Decoding
import CodeSessions.Service.Basic

/-!
# Captured output — a text that is written in pieces

An evaluation writes bytes, and its answer is a text.

- `Transcript.bytes_ofWrites`: a transcript holds what is written, put together,
- `Service.output_of_route`: a submission without a fault is answered with the text of its writes,
- `Service.captured_output`: that text does not depend on where the writes are cut, and shows every
  character that they contain.
-/

namespace CodeSessions

/-! ## Writes -/

namespace Transcript

/-- The bytes of writes, put together. -/
def joined (writes : List ByteArray) : List UInt8 :=
  writes.flatMap fun bytes => bytes.data.toList

/-- A new transcript after writes. -/
def ofWrites (writes : List ByteArray) : Transcript :=
  writes.foldl write .empty

theorem bytes_foldl_write (t : Transcript) (writes : List ByteArray) :
    (writes.foldl write t).bytes.data.toList = t.bytes.data.toList ++ joined writes := by
  induction writes generalizing t with
  | nil => simp [joined]
  | cons bytes writes ih => simp [ih, write, joined, List.append_assoc]

theorem bytes_ofWrites (writes : List ByteArray) :
    (ofWrites writes).bytes.data.toList = joined writes := by
  rw [ofWrites, bytes_foldl_write]
  rfl

theorem text_ofWrites (writes : List ByteArray) :
    (ofWrites writes).text = Utf8.shown (Utf8.units (joined writes)) := by
  rw [text, Utf8.text_eq_shown, bytes_ofWrites]

end Transcript

namespace Evaluation

/-- What an evaluation writes, in order. -/
def writes (e : Evaluation) : List ByteArray :=
  e.effects.filterMap fun
    | .write bytes => some bytes
    | .bind _ _ | .replace _ => none

theorem transcript_eq_ofWrites (e : Evaluation) : e.transcript = .ofWrites e.writes := by
  rw [transcript, Transcript.ofWrites, writes, List.foldl_filterMap]
  congr 1
  funext t effect
  cases effect <;> rfl

end Evaluation

/-! ## Outputs -/

namespace Service

open Script (programOfSource run prints completed written)

variable {s s' : Service} {now : Instant} {submission : Submission} {routed : Routed}

theorem output_of_route (hroute : s.route now submission = .ok (routed, s'))
    (hfault : (s'.evaluation routed).fault = none) :
    (s.dispatch now submission).1 =
      .ok (Transcript.ofWrites (s'.evaluation routed).writes).text := by
  rw [dispatch, hroute, ← Evaluation.transcript_eq_ofWrites]
  simp only [Evaluation.outcome, hfault]
  rfl

/-- A source that is evaluated without a fault is a program. -/
theorem exists_program_of_fault_eq_none {source : String} {env : Bindings}
    (h : (Script.interpreter source env).fault = none) :
    ∃ p, programOfSource source.toList = .ok p ∧ Script.interpreter source env = run p env := by
  rw [Script.interpreter] at h ⊢
  split at h
  · cases h
  · next p hp => exact ⟨p, hp, rfl⟩

/-- A script is answered with what it prints. -/
theorem output_of_script (hroute : s.route now submission = .ok (routed, s'))
    (hfault : (s'.evaluation routed).fault = none)
    (hscript : routed.interpreter = Script.interpreter) :
    ∃ p, programOfSource routed.body.toList = .ok p ∧
      (s.dispatch now submission).1 =
        .ok (written false (prints (completed (s'.store.bindings routed.environment) p))) := by
  rw [output_of_route hroute hfault, ← Evaluation.transcript_eq_ofWrites]
  rw [evaluation, hscript] at hfault ⊢
  obtain ⟨p, hp, hrun⟩ := exists_program_of_fault_eq_none hfault
  rw [hrun, Transcript.text, Script.bytes_transcript, Utf8.text_toUTF8]
  exact ⟨p, hp, rfl⟩

/-- What is captured depends on the bytes that are written, and not on the writes.  Of a text, cut
anywhere, it is that text; of any bytes it is the characters in them, with one U+FFFD for each
longest piece that is part of none, and well-formed bytes are no case of their own.  A submission
that does not fault is answered with what it writes, and a script with what it prints. -/
theorem captured_output :
    (∀ writes : List ByteArray,
      let bytes := Transcript.joined writes
      let text := (Transcript.ofWrites writes).text
      (∀ writes', Transcript.joined writes' = bytes →
        (Transcript.ofWrites writes').text = text) ∧
      (∀ t : String, bytes = t.toUTF8.data.toList → text = t) ∧
      (∃ us, Utf8.Decodes bytes us ∧ (∀ us', Utf8.Decodes bytes us' → us' = us) ∧
        text = Utf8.shown us) ∧
      ∀ t, String.fromUTF8? (Transcript.ofWrites writes).bytes = some t →
        Utf8.shown (Utf8.units bytes) = t) ∧
    ∀ (s s' : Service) (now : Instant) (submission : Submission) (routed : Routed),
      s.route now submission = .ok (routed, s') → (s'.evaluation routed).fault = none →
      (s.dispatch now submission).1 =
        .ok (Transcript.ofWrites (s'.evaluation routed).writes).text ∧
      (routed.interpreter = Script.interpreter →
        ∃ p, programOfSource routed.body.toList = .ok p ∧
          (s.dispatch now submission).1 =
            .ok (written false (prints (completed (s'.store.bindings routed.environment) p)))) := by
  refine ⟨fun writes => ⟨?_, ?_, ?_, ?_⟩, ?_⟩
  · intro writes' hjoined
    rw [Transcript.text_ofWrites, hjoined, ← Transcript.text_ofWrites]
  · intro t hjoined
    rw [Transcript.text_ofWrites, hjoined, Utf8.shown_units_toUTF8]
  · exact ⟨_, Utf8.decodes_units _, fun us' => Utf8.decodes_iff.1, Transcript.text_ofWrites writes⟩
  · intro t ht
    rw [← Transcript.bytes_ofWrites, Utf8.toUTF8_of_fromUTF8? ht, Utf8.shown_units_toUTF8]
  · intro s s' now submission routed hroute hfault
    exact ⟨output_of_route hroute hfault, output_of_script hroute hfault⟩

/-- A character that is cut in two, a character that breaks off and a surrogate, and a script. -/
theorem captured_output_cut :
    (Transcript.ofWrites [⟨#[0x6F, 0xE2, 0x82]⟩, ⟨#[0xAC]⟩]).text = "o€" ∧
    (Transcript.ofWrites [⟨#[0xF0, 0x9F]⟩, ⟨#[0x41, 0xED, 0xA0]⟩]).text =
      "\uFFFDA\uFFFD\uFFFD" ∧
    (dispatch {} 0 ⟨"%python print '€'", none⟩).1 = .ok "€\n" := by
  have hcut : Transcript.joined [⟨#[0x6F, 0xE2, 0x82]⟩, ⟨#[0xAC]⟩] = "o€".toUTF8.data.toList := by
    rw [Utf8.toList_toUTF8]
    decide
  have hbroken : Utf8.Decodes (Transcript.joined [⟨#[0xF0, 0x9F]⟩, ⟨#[0x41, 0xED, 0xA0]⟩])
      [none, some 'A', none, none] := by
    refine Utf8.decodes_iff.2 ?_
    simp [Transcript.joined, Utf8.unit, Utf8.tail, Utf8.units, Utf8.unitsFrom]
  obtain ⟨us, -, hunique, htext⟩ :=
    (captured_output.1 [⟨#[0xF0, 0x9F]⟩, ⟨#[0x41, 0xED, 0xA0]⟩]).2.2.1
  obtain rfl := hunique _ hbroken
  have hprogram : programOfSource "print '€'".toList =
      .ok [⟨1, .print [.literal (.text "€")] true⟩] := by
    have hlines : Text.lines "print '€'".toList = ["print '€'".toList] := by decide +kernel
    have htokens : Script.Token.ofLine "print '€'".toList = [.print, .literal (.text "€")] := by
      decide +kernel
    simp only [programOfSource, hlines, Script.programFrom, Script.readLine, htokens]
    rfl
  have hcell : Cell.ofText? "%python print '€'" = some ⟨"python", "print '€'"⟩ := by decide
  have hfind : Catalogue.builtin.find? "python" = some Script.interpreter := rfl
  obtain ⟨routed, s', hroute, hscript, hbody⟩ : ∃ routed s',
      route {} 0 ⟨"%python print '€'", none⟩ = .ok (routed, s') ∧
        routed.interpreter = Script.interpreter ∧ routed.body = "print '€'" := by
    simp only [route, hcell, hfind]
    exact ⟨_, _, rfl, rfl, rfl⟩
  have hfault : (s'.evaluation routed).fault = none := by
    rw [evaluation, hscript, hbody, Script.interpreter, hprogram]
    simp only [run, Script.runFrom, Script.Stmt.run, Script.renderItems, Script.eval]
    rfl
  obtain ⟨p, hp, houtput⟩ := (captured_output.2 _ _ _ _ _ hroute hfault).2 hscript
  rw [hbody, hprogram] at hp
  cases hp
  refine ⟨(captured_output.1 _).2.1 "o€" hcut, htext, houtput.trans ?_⟩
  simp only [completed, Script.Stmt.evaluate, List.mapM_cons, Script.eval]
  rfl

end Service
end CodeSessions
