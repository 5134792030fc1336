import CodeSessions.Proofs.Wire.Brackets
import CodeSessions.Reply
import CodeSessions.Submission

/-!
# Round trips — submissions, replies and settings

What is written for a submission, a reply or settings is read as the same submission, reply or
settings, whatever texts they hold.  Members that are absent are left out, and empty texts stay.

- `Submission.drafts`, `Reply.drafts` and `Settings.drafts` follow the written members through the
  fields that read them,
- `ofWire_toWire` is the round trip of all three, with the texts that are written for submissions
  and replies.
-/

namespace CodeSessions

open Wire

theorem Submission.drafts (s : Submission) :
    Drafts Submission.fields [] {}
      (("code", Wire.text s.code) :: Wire.member? "sessionId" (s.sessionId.map Wire.text))
      { code := some s.code, sessionId := s.sessionId } := by
  have hcode := (Decoder.reads_text s.code).map fun code => ({ code := some code } : Draft)
  refine .cons rfl rfl hcode ?_
  rcases s.sessionId with _ | id
  · exact .nil
  · have hid := (Decoder.reads_some (Decoder.reads_text id) (leads_text id)).map fun sessionId =>
      ({ code := some s.code, sessionId } : Draft)
    exact .cons rfl rfl hid .nil

theorem Reply.drafts (r : Reply) :
    Drafts Reply.fields [] {}
      (Wire.member? "result" (r.result.map Wire.text) ++
        Wire.member? "error" (r.error.map Wire.text)) r := by
  have hread : ∀ s, (Decoder.optional Decoder.text).Reads (Wire.text s) (some s) := by
    intro s
    exact Decoder.reads_some (Decoder.reads_text s) (leads_text s)
  -- a member that is there is read into its field
  have hresult : ∀ result, (Decoder.optional Decoder.text).Reads (Wire.text result) (some result) →
      (Reply.fields[0].read {}).Reads (Wire.text result) { result := some result } := by
    intro result h
    exact h.map fun result => ({ result } : Reply)
  have herror : ∀ draft error,
      (Decoder.optional Decoder.text).Reads (Wire.text error) (some error) →
      (Reply.fields[1].read draft).Reads (Wire.text error) { draft with error := some error } := by
    intro draft error h
    exact h.map fun error => { draft with error }
  rcases r with ⟨_ | result, _ | error⟩
  · exact .nil
  · exact .cons rfl rfl (herror {} error (hread error)) .nil
  · exact .cons rfl rfl (hresult result (hread result)) .nil
  · exact .cons rfl rfl (hresult result (hread result))
      (.cons rfl rfl (herror _ error (hread error)) .nil)

/-- A placement is written by its name. -/
theorem Placement.reads_decoder (p : Placement) :
    Placement.decoder.Reads (Wire.text p.name) p := by
  intro rest _
  rcases ofText_text p.name rest with ⟨body, hsource, hread⟩
  have hname : Placement.ofName p.name = .ok p := by cases p <;> rfl
  simp [Placement.decoder, hsource, skipBlanks_cons, isBlankUnit, hread, hname, bind, Except.bind]

theorem Settings.drafts (s : Settings) :
    Drafts Settings.fields [] {}
      [("error_placement", Wire.text s.placement.name),
        ("session_idle_timeout", Wire.optional writeWord s.idleLimit),
        ("eviction_interval", writeWord s.sweepInterval),
        ("evaluation_timeout", Wire.optional writeWord s.timeLimit),
        ("disabled_engines", Wire.list (s.disabledNames.map Wire.text))] s := by
  have hoptional : ∀ limit : Option UInt64,
      (Decoder.optional Decoder.word64).Reads (Wire.optional writeWord limit) limit :=
    Decoder.reads_optional Decoder.reads_word64 (fun n => leads_natural n.toNat)
  -- one field after the other, in the order in which they are written
  have hplacement := (Placement.reads_decoder s.placement).map fun placement =>
    ({ placement } : Settings)
  have hidle := (hoptional s.idleLimit).map fun idleLimit =>
    ({ placement := s.placement, idleLimit } : Settings)
  have hinterval := (Decoder.reads_word64 s.sweepInterval).map fun sweepInterval =>
    ({ placement := s.placement, idleLimit := s.idleLimit, sweepInterval } : Settings)
  have htime := (hoptional s.timeLimit).map fun timeLimit =>
    { s with timeLimit, disabledNames := [] }
  have hnames := (Decoder.reads_list Decoder.reads_text leads_text s.disabledNames).map
    fun disabledNames => { s with disabledNames }
  exact .cons rfl rfl hplacement (.cons rfl rfl hidle (.cons rfl rfl hinterval
    (.cons rfl rfl htime (.cons rfl rfl hnames .nil))))

/-! ## Written members -/

theorem Wire.record_one {name : String} (hname : isPlain name = true) (written : String) :
    Wire.record [(name, written)] = ("\x7b\"" ++ name ++ "\":") ++ written ++ "\x7d" := by
  apply String.toList_inj.mp
  simp [Wire.record, text_of_plain hname]

theorem Wire.record_two {name name' : String} (hname : isPlain name = true)
    (hname' : isPlain name' = true) (written written' : String) :
    Wire.record [(name, written), (name', written')] =
      ("\x7b\"" ++ name ++ "\":") ++ written ++ (",\"" ++ name' ++ "\":") ++ written' ++
        "\x7d" := by
  apply String.toList_inj.mp
  simp [Wire.record, text_of_plain hname, text_of_plain hname']

/-- Writing and reading back changes nothing, in any field.  An absent id, result or error is not
written, and an empty text is written as an empty text. -/
theorem ofWire_toWire :
    (∀ s : Submission, Submission.ofWire (Source.ofText s.toWire) = .ok s) ∧
    (∀ r : Reply, Reply.ofWire (Source.ofText r.toWire) = .ok r) ∧
    (∀ s : Settings, Settings.ofWire (Source.ofText s.toWire) = .ok s) ∧
    (∀ code : String,
      (Submission.mk code none).toWire = "\x7b\"code\":" ++ Wire.text code ++ "\x7d" ∧
      ∀ id : String, (Submission.mk code (some id)).toWire =
        "\x7b\"code\":" ++ Wire.text code ++ ",\"sessionId\":" ++ Wire.text id ++ "\x7d") ∧
    (Reply.mk none none).toWire = "\x7b\x7d" ∧
    (∀ result : String,
      (Reply.mk (some result) none).toWire = "\x7b\"result\":" ++ Wire.text result ++ "\x7d" ∧
      ∀ error : String, (Reply.mk (some result) (some error)).toWire =
        "\x7b\"result\":" ++ Wire.text result ++ ",\"error\":" ++ Wire.text error ++ "\x7d") ∧
    (∀ error : String,
      (Reply.mk none (some error)).toWire = "\x7b\"error\":" ++ Wire.text error ++ "\x7d") ∧
    Wire.text "" = "\"\"" := by
  refine ⟨?_, ?_, ?_, ?_, ?_, ?_, ?_, ?_⟩
  · intro s
    have hread : Submission.decoder.Reads s.toWire s := Decoder.reads_record s.drafts rfl
    exact hread.whole
  · intro r
    have hread : Reply.decoder.Reads r.toWire r := Decoder.reads_record r.drafts rfl
    exact hread.whole
  · intro s
    have hread : Settings.decoder.Reads s.toWire s := Decoder.reads_record s.drafts rfl
    exact hread.whole
  · intro code
    refine ⟨Wire.record_one (by decide) (Wire.text code), ?_⟩
    intro id
    exact Wire.record_two (by decide) (by decide) (Wire.text code) (Wire.text id)
  · rfl
  · intro result
    refine ⟨Wire.record_one (by decide) (Wire.text result), ?_⟩
    intro error
    exact Wire.record_two (by decide) (by decide) (Wire.text result) (Wire.text error)
  · intro error
    exact Wire.record_one (by decide) (Wire.text error)
  · exact text_of_plain (by decide)

end CodeSessions
