import CodeSessions.Proofs.Text.LeadBytes
import CodeSessions.Text.Utf8

/-!
# Decoding — the characters and the broken pieces of any bytes

Bytes that need not be well formed fall into characters and pieces that are part of none.  A piece
goes as far as a character could still have become of it.

- `MaximalInvalid piece rest`: `piece` is such a piece in front of `rest`,
- `Decodes bytes us`: the units of `bytes`, which `decodes_iff` says `units` finds,
- `text_eq_shown`: the text of any bytes shows their units, whether they are well formed or not.
-/

namespace CodeSessions
namespace Utf8

variable {lead low high : UInt8} {n value : Nat} {bytes rest : List UInt8} {c : Char}

/-! ## Pieces -/

/-- Bytes that a character can start with. -/
def Starts (bytes : List UInt8) : Prop :=
  bytes ≠ [] ∧ ∃ c, bytes <+: String.utf8EncodeChar c

theorem starts_encode (c : Char) : Starts (String.utf8EncodeChar c) :=
  ⟨String.utf8EncodeChar_ne_nil, c, List.prefix_rfl⟩

/-- These are a lead byte and some of the further bytes it asks for. -/
theorem starts_cons_iff : Starts (lead :: bytes) ↔ ∃ n low high value,
    Lead lead n low high value ∧ bytes.length ≤ n ∧ Continues low high bytes := by
  constructor
  · rintro ⟨-, c, more, hmore⟩
    obtain ⟨low, high, value, hlead, hcontinues, -⟩ := exists_lead_of_encode hmore.symm
    exact ⟨_, low, high, value, hlead, by simp, hcontinues.of_append⟩
  · rintro ⟨n, low, high, value, hlead, hlength, hcontinues⟩
    obtain ⟨more, hmore, hextended⟩ :=
      hcontinues.extend hlead.bounds.2.1 (n - bytes.length)
    obtain rfl : n = (bytes ++ more).length := by rw [List.length_append, hmore]; omega
    obtain ⟨c, hc⟩ := hlead.exists_encode hextended
    exact ⟨List.cons_ne_nil _ _, c, more, hc.symm⟩

/-- The bytes `piece` in front of `rest` are part of no character and are taken together: no
character stands at their front, they are a single byte or can start a character, and no longer
piece at their front can. -/
structure MaximalInvalid (piece rest : List UInt8) : Prop where
  no_char : ∀ c, ¬ String.utf8EncodeChar c <+: piece ++ rest
  starts : Starts piece ∨ piece.length = 1
  longest : ∀ longer, longer <+: piece ++ rest → Starts longer → longer.length ≤ piece.length

theorem MaximalInvalid.ne_nil {piece : List UInt8} (h : MaximalInvalid piece rest) :
    piece ≠ [] := by
  rcases h.starts with hstarts | hone
  · exact hstarts.1
  · exact List.ne_nil_of_length_eq_add_one hone

theorem MaximalInvalid.length_le {piece piece' rest' : List UInt8} (h : MaximalInvalid piece rest)
    (h' : MaximalInvalid piece' rest') (heq : piece ++ rest = piece' ++ rest') :
    piece'.length ≤ piece.length := by
  rcases h'.starts with hstarts | hone
  · exact h.longest _ (heq ▸ List.prefix_append _ _) hstarts
  · exact hone ▸ List.length_pos_of_ne_nil h.ne_nil

theorem MaximalInvalid.unique {piece piece' rest' : List UInt8} (h : MaximalInvalid piece rest)
    (h' : MaximalInvalid piece' rest') (heq : piece ++ rest = piece' ++ rest') :
    piece = piece' ∧ rest = rest' :=
  List.append_inj heq (le_antisymm (h'.length_le h heq.symm) (h.length_le h' heq))

/-! ## Reading a piece -/

/-- The piece that a byte starts, told by its value. -/
theorem unit_eq_ite (lead : UInt8) (bytes : List UInt8) :
    unit lead bytes =
      let v := lead.toNat
      if v < 0x80 then tail 0 0x80 0xBF v bytes
      else if v < 0xC2 then (none, bytes)
      else if v < 0xE0 then tail 1 0x80 0xBF (v - 0xC0) bytes
      else if v = 0xE0 then tail 2 0xA0 0xBF 0x0 bytes
      else if v = 0xED then tail 2 0x80 0x9F 0xD bytes
      else if v < 0xF0 then tail 2 0x80 0xBF (v - 0xE0) bytes
      else if v = 0xF0 then tail 3 0x90 0xBF 0x0 bytes
      else if v < 0xF4 then tail 3 0x80 0xBF (v - 0xF0) bytes
      else if v = 0xF4 then tail 3 0x80 0x8F 0x4 bytes
      else (none, bytes) := by
  simp only [unit, UInt8.lt_iff_toNat_lt, ← UInt8.toNat_inj, UInt8.reduceToNat, tail]

theorem Lead.unit_eq (h : Lead lead n low high value) (bytes : List UInt8) :
    unit lead bytes = tail n low high value bytes := by
  rw [unit_eq_ite]
  cases h <;> grind

/-- A byte that no character starts with is a piece by itself. -/
theorem unit_eq_of_no_lead (h : ∀ n low high value, ¬ Lead lead n low high value)
    (bytes : List UInt8) : unit lead bytes = (none, bytes) := by
  have hone : ¬ lead.toNat < 0x80 := fun hlead => h _ _ _ _ (.one rfl hlead)
  have htwo : ¬ (0xC2 ≤ lead.toNat ∧ lead.toNat < 0xE0) := by
    intro hlead
    refine h _ _ _ _ (.two (Nat.sub_add_cancel ?_).symm ?_ ?_) <;> omega
  have hthree : ¬ (0xE0 < lead.toNat ∧ lead.toNat < 0xF0 ∧ lead.toNat ≠ 0xED) := by
    intro hlead
    refine h _ _ _ _ (.three (Nat.sub_add_cancel ?_).symm ?_ ?_ ?_) <;> omega
  have hfour : ¬ (0xF0 < lead.toNat ∧ lead.toNat < 0xF4) := by
    intro hlead
    refine h _ _ _ _ (.four (Nat.sub_add_cancel ?_).symm ?_ ?_) <;> omega
  have hbounds : lead.toNat ≠ 0xE0 ∧ lead.toNat ≠ 0xED ∧ lead.toNat ≠ 0xF0 ∧ lead.toNat ≠ 0xF4 :=
    ⟨fun heq => h _ _ _ _ (.threeLow heq), fun heq => h _ _ _ _ (.threeBelowSurrogates heq),
      fun heq => h _ _ _ _ (.fourLow heq), fun heq => h _ _ _ _ (.fourHigh heq)⟩
  rw [unit_eq_ite]
  grind

theorem tail_append (h : Continues low high bytes) (value : Nat) (rest : List UInt8) :
    tail bytes.length low high value (bytes ++ rest) =
      (some (Char.ofNat (assemble value bytes)), rest) := by
  induction bytes generalizing low high value with
  | nil => rfl
  | cons b bytes ih =>
      rw [List.length_cons, List.cons_append, tail, if_pos h.1, ih h.2, assemble_cons]

theorem unit_encode (h : String.utf8EncodeChar c = lead :: bytes) (rest : List UInt8) :
    unit lead (bytes ++ rest) = (some c, rest) := by
  obtain ⟨low, high, value, hlead, hcontinues, hcode⟩ := exists_lead_of_encode h
  rw [hlead.unit_eq, tail_append hcontinues, hcode, Char.ofNat_toNat]

/-- The further bytes are all there, or some of them and no more. -/
theorem tail_cases (n : Nat) (low high : UInt8) (value : Nat) (bytes : List UInt8) :
    (∃ front rest, bytes = front ++ rest ∧ Continues low high front ∧ front.length = n) ∨
    ∃ front rest, bytes = front ++ rest ∧ Continues low high front ∧ front.length < n ∧
      (∀ longer, longer <+: front ++ rest → Continues low high longer →
        longer.length ≤ front.length) ∧
      tail n low high value bytes = (none, rest) := by
  fun_induction tail n low high value bytes with
  | case1 _ _ _ bytes => exact .inl ⟨[], bytes, rfl, trivial, rfl⟩
  | case2 _ _ _ n =>
      refine .inr ⟨[], [], rfl, trivial, Nat.succ_pos n, fun longer hlonger _ => ?_, rfl⟩
      rw [List.prefix_nil.1 hlonger]
  | case3 n low high value b bytes hb ih =>
      rcases ih with ⟨front, rest, rfl, hfront, hlength⟩ |
        ⟨front, rest, rfl, hfront, hlength, hlongest, htail⟩
      · exact .inl ⟨b :: front, rest, rfl, ⟨hb, hfront⟩, congrArg _ hlength⟩
      · refine .inr ⟨b :: front, rest, rfl, ⟨hb, hfront⟩, Nat.succ_lt_succ hlength, ?_, htail⟩
        intro longer hlonger hcontinues
        cases longer with
        | nil => exact Nat.zero_le _
        | cons b' longer =>
            have hprefix := (List.cons_prefix_cons.1 hlonger).2
            exact Nat.succ_le_succ (hlongest longer hprefix hcontinues.2)
  | case4 n low high value b bytes hb =>
      refine .inr ⟨[], b :: bytes, rfl, trivial, Nat.succ_pos n, ?_, rfl⟩
      intro longer hlonger hcontinues
      cases longer with
      | nil => exact Nat.le_refl _
      | cons b' longer =>
          obtain ⟨rfl, -⟩ := List.cons_prefix_cons.1 hlonger
          exact absurd hcontinues.1 hb

theorem MaximalInvalid.of_lead {front : List UInt8} (h : Lead lead n low high value)
    (hfront : Continues low high front) (hlength : front.length < n)
    (hlongest : ∀ longer, longer <+: front ++ rest → Continues low high longer →
      longer.length ≤ front.length) : MaximalInvalid (lead :: front) rest where
  no_char c hc := by
    obtain ⟨lead', further, hencode⟩ := List.exists_cons_of_ne_nil (@String.utf8EncodeChar_ne_nil c)
    obtain ⟨low', high', value', h', hfurther, -⟩ := exists_lead_of_encode hencode
    rw [hencode, List.cons_append] at hc
    obtain ⟨rfl, hprefix⟩ := List.cons_prefix_cons.1 hc
    obtain ⟨hn, rfl, rfl, -⟩ := h.unique h'
    have hle := hlongest further hprefix hfurther
    omega
  starts := .inl (starts_cons_iff.2 ⟨n, low, high, value, h, hlength.le, hfront⟩)
  longest longer hlonger hstarts := by
    cases longer with
    | nil => exact absurd rfl hstarts.1
    | cons lead' longer =>
        obtain ⟨rfl, hprefix⟩ := List.cons_prefix_cons.1 hlonger
        obtain ⟨n', low', high', value', h', -, hcontinues⟩ := starts_cons_iff.1 hstarts
        obtain ⟨-, rfl, rfl, -⟩ := h.unique h'
        exact Nat.succ_le_succ (hlongest longer hprefix hcontinues)

theorem MaximalInvalid.of_no_lead (h : ∀ n low high value, ¬ Lead lead n low high value)
    (rest : List UInt8) : MaximalInvalid [lead] rest := by
  have hnot : ∀ longer, longer <+: lead :: rest → ¬ Starts longer := by
    intro longer hlonger hstarts
    cases longer with
    | nil => exact hstarts.1 rfl
    | cons lead' longer =>
        obtain ⟨rfl, -⟩ := List.cons_prefix_cons.1 hlonger
        obtain ⟨n, low, high, value, hlead, -⟩ := starts_cons_iff.1 hstarts
        exact h n low high value hlead
  exact ⟨fun c hc => hnot _ hc (starts_encode c), .inr rfl,
    fun longer hlonger hstarts => absurd hstarts (hnot longer hlonger)⟩

/-- What is read is a character, or the longest piece that is part of none. -/
theorem unit_cases (lead : UInt8) (bytes : List UInt8) :
    (∃ c rest, lead :: bytes = String.utf8EncodeChar c ++ rest ∧
      unit lead bytes = (some c, rest)) ∨
    ∃ piece rest, lead :: bytes = piece ++ rest ∧ MaximalInvalid piece rest ∧
      unit lead bytes = (none, rest) := by
  by_cases hlead : ∃ n low high value, Lead lead n low high value
  · obtain ⟨n, low, high, value, hlead⟩ := hlead
    rcases tail_cases n low high value bytes with ⟨front, rest, rfl, hfront, rfl⟩ |
      ⟨front, rest, rfl, hfront, hlength, hlongest, htail⟩
    · obtain ⟨c, hc⟩ := hlead.exists_encode hfront
      exact .inl ⟨c, rest, by rw [hc, List.cons_append], unit_encode hc rest⟩
    · exact .inr ⟨lead :: front, rest, rfl, .of_lead hlead hfront hlength hlongest,
        (hlead.unit_eq _).trans htail⟩
  · simp only [not_exists] at hlead
    exact .inr ⟨[lead], bytes, rfl, .of_no_lead hlead bytes, unit_eq_of_no_lead hlead bytes⟩

/-! ## Reading all pieces -/

theorem unitsFrom_eq (done : List (Option Char)) (bytes : List UInt8) :
    unitsFrom done bytes = done.reverse ++ units bytes := by
  have happend : ∀ bytes done before,
      unitsFrom (done ++ before) bytes = before.reverse ++ unitsFrom done bytes := by
    intro bytes done before
    fun_induction unitsFrom done bytes with
    | case1 done => rw [unitsFrom, List.reverse_append]
    | case2 done lead rest ih => rw [unitsFrom, ← List.cons_append, ih]
  exact happend bytes [] done

theorem units_cons (lead : UInt8) (bytes : List UInt8) :
    units (lead :: bytes) = (unit lead bytes).1 :: units (unit lead bytes).2 := by
  rw [units, unitsFrom, unitsFrom_eq, List.reverse_singleton, List.singleton_append]

/-- The units of a byte string: characters that stand there, and one `none` for every longest piece
that is part of none. -/
inductive Decodes : List UInt8 → List (Option Char) → Prop
  | nil : Decodes [] []
  | char {c : Char} {rest : List UInt8} {us : List (Option Char)} :
      Decodes rest us → Decodes (String.utf8EncodeChar c ++ rest) (some c :: us)
  | invalid {piece rest : List UInt8} {us : List (Option Char)} :
      MaximalInvalid piece rest → Decodes rest us → Decodes (piece ++ rest) (none :: us)

theorem units_encode_append (c : Char) (rest : List UInt8) :
    units (String.utf8EncodeChar c ++ rest) = some c :: units rest := by
  obtain ⟨lead, bytes, hc⟩ := List.exists_cons_of_ne_nil (@String.utf8EncodeChar_ne_nil c)
  rw [hc, List.cons_append, units_cons, unit_encode hc]

theorem MaximalInvalid.units_append {piece : List UInt8} (h : MaximalInvalid piece rest) :
    units (piece ++ rest) = none :: units rest := by
  obtain ⟨lead, front, rfl⟩ := List.exists_cons_of_ne_nil h.ne_nil
  rw [List.cons_append, units_cons]
  rcases unit_cases lead (front ++ rest) with ⟨c, rest', hbytes, -⟩ |
    ⟨piece', rest', hbytes, h', hunit⟩
  · exact absurd ⟨rest', hbytes.symm⟩ (h.no_char c)
  · obtain ⟨-, rfl⟩ := h.unique h' hbytes
    rw [hunit]

theorem decodes_units (bytes : List UInt8) : Decodes bytes (units bytes) := by
  induction hn : bytes.length using Nat.strong_induction_on generalizing bytes with
  | _ n ih =>
      cases bytes with
      | nil => rw [units, unitsFrom]; exact .nil
      | cons lead bytes =>
          have hlt : (unit lead bytes).2.length < (lead :: bytes).length :=
            Nat.lt_succ_of_le (length_unit_le lead bytes)
          have hrest := ih _ (hn ▸ hlt) _ rfl
          rw [units_cons]
          rcases unit_cases lead bytes with ⟨c, rest, hbytes, hunit⟩ |
            ⟨piece, rest, hbytes, hpiece, hunit⟩
          · rw [hunit] at hrest ⊢
            exact hbytes ▸ .char hrest
          · rw [hunit] at hrest ⊢
            exact hbytes ▸ .invalid hpiece hrest

/-- A byte string has its units and no others. -/
theorem decodes_iff {us : List (Option Char)} : Decodes bytes us ↔ us = units bytes := by
  constructor
  · intro h
    induction h with
    | nil => rw [units, unitsFrom, List.reverse_nil]
    | char _ ih => rw [units_encode_append, ih]
    | invalid hpiece _ ih => rw [hpiece.units_append, ih]
  · rintro rfl
    exact decodes_units bytes

/-! ## Texts -/

theorem units_flatMap_encode (cs : List Char) :
    units (cs.flatMap String.utf8EncodeChar) = cs.map some := by
  induction cs with
  | nil => rw [List.flatMap_nil, units, unitsFrom, List.reverse_nil, List.map_nil]
  | cons c cs ih => rw [List.flatMap_cons, units_encode_append, ih, List.map_cons]

/-- The text of units, with U+FFFD for each that is no character. -/
def shown (us : List (Option Char)) : String :=
  String.ofList (us.map fun u => u.getD '\uFFFD')

@[simp]
theorem shown_units_toUTF8 (s : String) : shown (units s.toUTF8.data.toList) = s := by
  rw [toList_toUTF8, units_flatMap_encode, shown, List.map_map]
  exact (congrArg _ (List.map_id _)).trans (String.ofList_toList)

theorem text_toUTF8 (s : String) : text s.toUTF8 = s := by
  rw [text, fromUTF8?_toUTF8]

/-- The text of well-formed bytes is not a case of its own. -/
theorem text_eq_shown (bytes : ByteArray) : text bytes = shown (units bytes.data.toList) := by
  rw [text]
  split
  · next s hs =>
      obtain rfl := toUTF8_of_fromUTF8? hs
      rw [shown_units_toUTF8]
  · rw [toList_eq, shown]

end Utf8
end CodeSessions
