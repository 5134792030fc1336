import CodeSessions.Wire.Decoder
import CodeSessions.Wire.Written
import Mathlib.Data.List.Basic

/-!
# Scalars — texts and numbers that are read back

What is written for a text or for a number is read back as that text or number, and nothing behind
it is touched.

- `Decoder.Reads` says that a decoder reads a value off the front of a source, whatever follows it,
  as long as it is something that may follow a value (`Closes`),
- `Decoder.reads_text` is the round trip of texts, escapes included,
- `Decoder.reads_word64` is the round trip of numbers below `2 ^ 64`,
- `Decoder.reads_optional` adds `null`.

A text ends with its quote, so it does not matter what follows it.  A number has no end of its own:
a digit, a point or an exponent behind it would be read as part of it.
-/

namespace CodeSessions
namespace Wire

/-! ## What follows a value -/

/-- The end of the source, a comma, or the end of a list or of an object. -/
def Closes : Source → Prop
  | [] => True
  | unit :: _ => unit = some ',' ∨ unit = some ']' ∨ unit = some '\x7d'

/-- The decoder reads the written form of the value, and leaves what follows it. -/
def Decoder.Reads {α : Type} (d : Decoder α) (written : String) (a : α) : Prop :=
  ∀ rest, Closes rest → d (Source.ofText written ++ rest) = .ok (a, rest)

/-- The first character tells the text apart from a blank, from `null`, and from what stands between
the items of a list and behind them. -/
def Leads (written : String) : Prop :=
  ∃ c s, written.toList = c :: s ∧ isBlankUnit (some c) = false ∧ c ≠ 'n' ∧ c ≠ ',' ∧ c ≠ ']'

theorem skipBlanks_cons {c : Char} (h : isBlankUnit (some c) = false) (s : Source) :
    skipBlanks (some c :: s) = some c :: s := by
  simp [skipBlanks, h]

/-- A value that is read may be worked on. -/
theorem Decoder.Reads.map {α β : Type} {d : Decoder α} {written : String} {a : α}
    (h : d.Reads written a) (f : α → β) :
    Decoder.Reads (fun s => do let (a, s) ← d s; .ok (f a, s)) written (f a) := by
  intro rest hrest
  simp only [h rest hrest]
  rfl

/-! ## Escapes -/

/-- What is written for one character of a text. -/
def writtenChar (c : Char) : List Char :=
  match escape? c with
  | some escaped => escaped.toList
  | none => [c]

theorem toList_pushEscaped (done : String) (c : Char) :
    (pushEscaped done c).toList = done.toList ++ writtenChar c := by
  rcases hc : escape? c with _ | escaped <;> simp [pushEscaped, writtenChar, hc]

theorem toList_text (s : String) :
    (text s).toList = '"' :: s.toList.flatMap writtenChar ++ ['"'] := by
  -- by induction on the characters, whatever has been written before
  have hfold : ∀ (chars : List Char) (done : String),
      (chars.foldl pushEscaped done).toList = done.toList ++ chars.flatMap writtenChar := by
    intro chars
    induction chars with
    | nil => simp
    | cons c chars ih =>
        intro done
        simp [ih, toList_pushEscaped]
  simp [text, String.foldl_eq_foldl_toList, hfold]

/-- All characters of a text stand for themselves. -/
def isPlain (s : String) : Bool :=
  s.toList.all fun c => writtenChar c == [c]

/-- A plain text is written in quotes as it is. -/
theorem text_of_plain {s : String} (h : isPlain s = true) : text s = "\"" ++ s ++ "\"" := by
  have hself : ∀ c ∈ s.toList, writtenChar c = [c] := by
    simpa [isPlain] using h
  have hchars : s.toList.flatMap writtenChar = s.toList := by
    simpa using List.flatMap_congr hself
  apply String.toList_inj.mp
  simp [toList_text, hchars]

/-- A character is escaped by a letter, escaped by its number, or stands for itself. -/
theorem escape?_cases (c : Char) :
    (∃ letter, letter ≠ 'u' ∧ escape? c = some (String.ofList ['\\', letter]) ∧
      escapeLetter? letter = some c) ∨
    (c.toNat < 0x20 ∧ escape? c = some (String.ofList ('\\' :: 'u' :: hexDigits4 c.toNat))) ∨
    (c ≠ '"' ∧ c ≠ '\\' ∧ ¬ c.toNat < 0x20 ∧ escape? c = none) := by
  unfold escape?
  split
  · exact .inl ⟨'"', by decide, rfl, rfl⟩
  · exact .inl ⟨'\\', by decide, rfl, rfl⟩
  · exact .inl ⟨'b', by decide, rfl, rfl⟩
  · exact .inl ⟨'f', by decide, rfl, rfl⟩
  · exact .inl ⟨'n', by decide, rfl, rfl⟩
  · exact .inl ⟨'r', by decide, rfl, rfl⟩
  · exact .inl ⟨'t', by decide, rfl, rfl⟩
  · rename_i hquote hslash _ _ _ _ _
    right
    by_cases hcontrol : c.toNat < 0x20
    · exact .inl ⟨hcontrol, by simp [hcontrol]⟩
    · exact .inr ⟨hquote, hslash, hcontrol, by simp [hcontrol]⟩

theorem readEscape_letter {letter c : Char} (hletter : letter ≠ 'u')
    (hc : escapeLetter? letter = some c) (s : Source) :
    readEscape (some letter :: s) = some (c, s) := by
  unfold readEscape
  split
  · rename_i heq
    injection heq with hhead
    exact absurd (Option.some.inj hhead) hletter
  · rename_i heq
    cases heq
    simp [hc]
  · rename_i hother
    exact absurd rfl (hother letter s)

/-- The number of a control character has two leading zeros. -/
theorem hexDigits4_of_lt : ∀ n < 0x20,
    hexDigits4 n = ['0', '0', (n / 16).digitChar, (n % 16).digitChar] ∧
      hexDigit? (some (n / 16).digitChar) = some (n / 16) ∧
      hexDigit? (some (n % 16).digitChar) = some (n % 16) := by
  decide

theorem readEscape_control {c : Char} (hc : c.toNat < 0x20) (s : Source) :
    readEscape (some 'u' :: ((hexDigits4 c.toNat).map some ++ s)) = some (c, s) := by
  rcases hexDigits4_of_lt c.toNat hc with ⟨hdigits, hhigh, hlow⟩
  have hzero : hexDigit? (some '0') = some 0 := by decide
  have hread : readHex4 ((hexDigits4 c.toNat).map some ++ s) = some (c.toNat, s) := by
    simp [hdigits, readHex4, hzero, hhigh, hlow, Nat.div_add_mod']
  have hlowSurrogate : isLowSurrogate c.toNat = false := by
    simp [isLowSurrogate]
    omega
  have hhighSurrogate : isHighSurrogate c.toNat = false := by
    simp [isHighSurrogate]
    omega
  simp [readEscape, readCodePoint, hread, hlowSurrogate, hhighSurrogate]

/-! ## Texts -/

theorem readTextFrom_escape {c : Char} {s rest : Source} (h : readEscape s = some (c, rest))
    (done : List Char) :
    readTextFrom done (some '\\' :: s) = readTextFrom (c :: done) rest := by
  rw [readTextFrom]
  split
  · rename_i heq
    cases h.symm.trans heq
    rfl
  · rename_i heq
    cases h.symm.trans heq

/-- What is written for a character is read as that character. -/
theorem readTextFrom_writtenChar (c : Char) (done : List Char) (s : Source) :
    readTextFrom done ((writtenChar c).map some ++ s) = readTextFrom (c :: done) s := by
  rcases escape?_cases c with ⟨letter, hu, hescape, hletter⟩ | ⟨hcontrol, hescape⟩ |
    ⟨hquote, hslash, hcontrol, hescape⟩
  · have hread := readEscape_letter hu hletter s
    simp only [writtenChar, hescape, String.toList_ofList, List.map_cons, List.map_nil,
      List.cons_append, List.nil_append]
    exact readTextFrom_escape hread done
  · have hread := readEscape_control hcontrol s
    simp only [writtenChar, hescape, String.toList_ofList, List.map_cons, List.cons_append]
    exact readTextFrom_escape hread done
  · simp only [writtenChar, hescape, List.map_cons, List.map_nil, List.cons_append, List.nil_append]
    rw [readTextFrom]
    · simp [hcontrol]
    · exact hquote
    · exact hslash

theorem readTextFrom_flatMap (chars done : List Char) (s : Source) :
    readTextFrom done ((chars.flatMap writtenChar).map some ++ some '"' :: s) =
      .ok (String.ofList (done.reverse ++ chars), s) := by
  induction chars generalizing done with
  | nil => simp [readTextFrom]
  | cons c chars ih =>
      simp only [List.flatMap_cons, List.map_append, List.append_assoc, readTextFrom_writtenChar,
        ih, List.reverse_cons, List.singleton_append]

/-- The written form of a text, behind its opening quote. -/
theorem ofText_text (s : String) (rest : Source) :
    ∃ body, Source.ofText (text s) ++ rest = some '"' :: body ∧ readText body = .ok (s, rest) := by
  refine ⟨(s.toList.flatMap writtenChar).map some ++ some '"' :: rest, ?_, ?_⟩
  · simp [Source.ofText, toList_text]
  · simp [readText, readTextFrom_flatMap]

theorem leads_text (s : String) : Leads (text s) :=
  ⟨'"', _, toList_text s, by decide, by decide, by decide, by decide⟩

theorem Decoder.reads_text (s : String) : Decoder.text.Reads (Wire.text s) s := by
  intro rest _
  rcases ofText_text s rest with ⟨body, hsource, hread⟩
  simp [Decoder.text, hsource, skipBlanks_cons, isBlankUnit, hread]

/-! ## Numbers -/

/-- The value of a digit. -/
def digitOf (c : Char) : Nat :=
  c.toNat - '0'.toNat

theorem digit?_of_isDigit {c : Char} (h : c.isDigit = true) :
    digit? (some c) = some (digitOf c) := by
  simp [digit?, digitOf, h]

theorem isDigitUnit_of_closes {rest : Source} (h : Closes rest) :
    rest.takeWhile isDigitUnit = [] ∧ rest.dropWhile isDigitUnit = rest := by
  rcases rest with _ | ⟨unit, rest⟩
  · simp
  · have hunit : isDigitUnit unit = false := by
      rcases h with rfl | rfl | rfl <;> decide
    simp [hunit]

/-- Digits are read up to the first unit that is none. -/
theorem readDigits_digits {digits : List Char} (h : ∀ c ∈ digits, c.isDigit = true) {rest : Source}
    (hrest : Closes rest) :
    readDigits (digits.map some ++ rest) = (digits.map digitOf, rest) := by
  rcases isDigitUnit_of_closes hrest with ⟨htake, hdrop⟩
  induction digits with
  | nil => simp [readDigits, htake, hdrop]
  | cons c digits ih =>
      have hc := digit?_of_isDigit (h c (by simp))
      have hunit : isDigitUnit (some c) = true := by simp [isDigitUnit, hc]
      have hdigits := ih (fun d hd => h d (List.mem_cons_of_mem c hd))
      simp only [readDigits, Prod.mk.injEq] at hdigits
      simp [readDigits, hunit, hc, hdigits]

/-- A number has no leading zero, unless it is zero. -/
theorem toDigits_eq_zero_cons {n : Nat} {digits : List Char} :
    Nat.toDigits 10 n = '0' :: digits → digits = [] := by
  induction n using Nat.strongRecOn generalizing digits with
  | ind n ih =>
      intro h
      by_cases hn : n < 10
      · simp only [Nat.toDigits_of_lt_base hn, List.cons.injEq] at h
        exact h.2.symm
      · -- the digits in front of the last are those of a smaller number, which is not zero
        simp only [Nat.toDigits_of_base_le (by decide) (Nat.le_of_not_lt hn)] at h
        rcases hfront : Nat.toDigits 10 (n / 10) with _ | ⟨c, front⟩
        · exact absurd hfront Nat.toDigits_ne_nil
        · simp only [hfront, List.cons_append, List.cons.injEq] at h
          have hnil : front = [] := ih (n / 10) (by omega) (h.1 ▸ hfront)
          have hvalue : Nat.ofDigitChars 10 (Nat.toDigits 10 (n / 10)) 0 = n / 10 :=
            Nat.ofDigitChars_ten_toDigits
          simp only [hfront, h.1, hnil, Nat.ofDigitChars_cons, Nat.ofDigitChars_nil] at hvalue
          have hzero : n / 10 = 0 := by simpa using hvalue.symm
          omega

theorem le_foldl_digits (digits : List Nat) (n : Nat) :
    n ≤ digits.foldl (fun n d => n * 10 + d) n := by
  induction digits generalizing n with
  | nil => exact Nat.le_refl n
  | cons d digits ih =>
      calc
        n ≤ n * 10 + d := by omega
        _ ≤ digits.foldl (fun n d => n * 10 + d) (n * 10 + d) := ih (n * 10 + d)

/-- If every digit that fits is kept, digits that all fit are all kept. -/
theorem foldl_kept {step : Nat × Nat → Nat → Nat × Nat}
    (hstep : ∀ n d, n * 10 + d < UInt64.size → step (n, 0) d = (n * 10 + d, 0))
    (digits : List Nat) (n : Nat) (h : digits.foldl (fun n d => n * 10 + d) n < UInt64.size) :
    digits.foldl step (n, 0) = (digits.foldl (fun n d => n * 10 + d) n, 0) := by
  induction digits generalizing n with
  | nil => rfl
  | cons d digits ih =>
      have hfits : n * 10 + d < UInt64.size :=
        Nat.lt_of_le_of_lt (le_foldl_digits digits (n * 10 + d)) h
      simpa [hstep n d hfits] using ih (n * 10 + d) h

theorem leading_of_lt {digits : List Nat}
    (h : digits.foldl (fun n d => n * 10 + d) 0 < UInt64.size) :
    Numeral.leading digits = (digits.foldl (fun n d => n * 10 + d) 0, 0) := by
  refine foldl_kept ?_ digits 0 h
  intro n d hfits
  simp [hfits]

theorem value_toDigits (n : Nat) :
    ((Nat.toDigits 10 n).map digitOf).foldl (fun n d => n * 10 + d) 0 = n := by
  have hvalue : Nat.ofDigitChars 10 (Nat.toDigits 10 n) 0 = n := Nat.ofDigitChars_ten_toDigits
  simp only [Nat.ofDigitChars_eq_foldl] at hvalue
  simpa [List.foldl_map, digitOf, Nat.mul_comm] using hvalue

theorem eq_zero_of_digitOf {c : Char} (hc : c.isDigit = true) (h : digitOf c = 0) : c = '0' := by
  have hrange : '0'.toNat ≤ c.toNat := by
    simp only [Char.isDigit, Bool.and_eq_true, decide_eq_true_eq] at hc
    exact UInt32.le_iff_toNat_le.mp hc.1
  have hvalue : c.toNat = '0'.toNat := by
    simp only [digitOf] at h
    omega
  calc
    c = Char.ofNat c.toNat := (Char.ofNat_toNat c).symm
    _ = Char.ofNat '0'.toNat := congrArg Char.ofNat hvalue
    _ = '0' := Char.ofNat_toNat '0'

theorem readWhole_eq_ok {s rest : Source} {digits : List Nat} (h : readDigits s = (digits, rest))
    (hne : digits ≠ []) (hzero : ∀ d ds, digits ≠ 0 :: d :: ds) :
    readWhole s = .ok (digits, rest) := by
  unfold readWhole
  split
  · rename_i heq
    cases h.symm.trans heq
    exact absurd rfl hne
  · rename_i d ds _ heq
    cases h.symm.trans heq
    exact absurd rfl (hzero d ds)
  · rename_i heq
    cases h.symm.trans heq
    rfl

theorem readWhole_digits (n : Nat) {rest : Source} (hrest : Closes rest) :
    readWhole ((Nat.toDigits 10 n).map some ++ rest) =
      .ok ((Nat.toDigits 10 n).map digitOf, rest) := by
  have hdigit : ∀ c ∈ Nat.toDigits 10 n, c.isDigit = true := by
    intro c hc
    exact Nat.isDigit_of_mem_toDigits (by decide) (by decide) hc
  refine readWhole_eq_ok (readDigits_digits hdigit hrest) ?_ ?_
  · simp
  · intro d ds hdigits
    rcases hwritten : Nat.toDigits 10 n with _ | ⟨c, digits⟩
    · simp [hwritten] at hdigits
    · simp only [hwritten, List.map_cons, List.cons.injEq] at hdigits
      have hc : c = '0' := eq_zero_of_digitOf (hdigit c (by simp [hwritten])) hdigits.1
      have hnil : digits = [] := toDigits_eq_zero_cons (hc ▸ hwritten)
      simp [hnil] at hdigits

theorem readFraction_of_closes {rest : Source} (h : Closes rest) :
    readFraction rest = .ok (none, rest) := by
  unfold readFraction
  split
  · rcases h with h | h | h <;> cases h
  · rfl

theorem readExponent_of_closes {rest : Source} (h : Closes rest) :
    readExponent rest = .ok (none, rest) := by
  unfold readExponent
  split
  · rcases h with h | h | h <;> cases h
  · rcases h with h | h | h <;> cases h
  · rfl

/-- The numeral that is read for a number: its digits, and neither a sign, nor a point, nor an
exponent. -/
def numeralOf (n : Nat) : Numeral :=
  { negative := false
    whole := (Nat.toDigits 10 n).map digitOf
    fraction := none
    exponent := none }

theorem ofText_natural (n : Nat) : Source.ofText (natural n) = (Nat.toDigits 10 n).map some := by
  simp [Source.ofText, natural]

/-- A written number starts with a digit. -/
theorem toDigits_eq_cons (n : Nat) :
    ∃ c digits, Nat.toDigits 10 n = c :: digits ∧ c.isDigit = true := by
  rcases hdigits : Nat.toDigits 10 n with _ | ⟨c, digits⟩
  · exact absurd hdigits Nat.toDigits_ne_nil
  · have hmem : c ∈ Nat.toDigits 10 n := by simp [hdigits]
    exact ⟨c, digits, rfl, Nat.isDigit_of_mem_toDigits (by decide) (by decide) hmem⟩

theorem readNumeral_natural (n : Nat) {rest : Source} (hrest : Closes rest) :
    readNumeral (Source.ofText (natural n) ++ rest) = .ok (numeralOf n, rest) := by
  have hunsigned : readUnsigned false ((Nat.toDigits 10 n).map some ++ rest) =
      .ok (numeralOf n, rest) := by
    simp only [readUnsigned, readWhole_digits n hrest, readFraction_of_closes hrest,
      readExponent_of_closes hrest, bind, Except.bind, numeralOf]
  rcases toDigits_eq_cons n with ⟨c, digits, hdigits, hc⟩
  have hsign : c ≠ '-' := by
    rintro rfl
    cases hc
  simp only [ofText_natural, hdigits, List.map_cons, List.cons_append] at hunsigned ⊢
  refine Eq.trans ?_ hunsigned
  unfold readNumeral
  split
  · rename_i heq
    injection heq with hhead
    exact absurd (Option.some.inj hhead) hsign
  · rfl

theorem word64?_numeralOf {n : Nat} (h : n < UInt64.size) : (numeralOf n).word64? = some n := by
  have hleading : Numeral.leading ((Nat.toDigits 10 n).map digitOf) = (n, 0) := by
    have hvalue := value_toDigits n
    have hkept := leading_of_lt (hvalue.symm ▸ h)
    simpa only [hvalue] using hkept
  simp [Numeral.word64?, numeralOf, hleading]

theorem leads_natural (n : Nat) : Leads (natural n) := by
  rcases toDigits_eq_cons n with ⟨c, digits, hdigits, hc⟩
  refine ⟨c, digits, by simp [natural, hdigits], ?_⟩
  -- none of the excluded characters is a digit
  refine ⟨?_, ?_, ?_, ?_⟩
  · rcases hblank : isBlankUnit (some c) with _ | _
    · rfl
    · simp only [isBlankUnit, Bool.or_eq_true, beq_iff_eq] at hblank
      rcases hblank with ((rfl | rfl) | rfl) | rfl <;> cases hc
  all_goals
    rintro rfl
    cases hc

theorem Decoder.reads_word64 (n : UInt64) : Decoder.word64.Reads (natural n.toNat) n := by
  intro rest hrest
  rcases leads_natural n.toNat with ⟨c, s, hwritten, hblank, _⟩
  have hskip : skipBlanks (Source.ofText (natural n.toNat) ++ rest) =
      Source.ofText (natural n.toNat) ++ rest := by
    simp only [Source.ofText, hwritten, List.map_cons, List.cons_append, skipBlanks_cons hblank]
  have hword : (numeralOf n.toNat).word64? = some n.toNat := word64?_numeralOf n.toNat_lt
  simp only [Decoder.word64, hskip, readNumeral_natural n.toNat hrest, hword, UInt64.ofNat_toNat]

/-! ## Absent values -/

theorem ofText_of_leads {written : String} (h : Leads written) (rest : Source) :
    ∃ c s, Source.ofText written ++ rest = some c :: s ∧ isBlankUnit (some c) = false ∧
      c ≠ 'n' ∧ c ≠ ',' ∧ c ≠ ']' := by
  rcases h with ⟨c, s, hwritten, hc⟩
  exact ⟨c, s.map some ++ rest, by simp [Source.ofText, hwritten], hc⟩

theorem Decoder.reads_some {α : Type} {d : Decoder α} {written : String} {a : α}
    (h : d.Reads written a) (hleads : Leads written) :
    (Decoder.optional d).Reads written (some a) := by
  intro rest hrest
  have hread := h rest hrest
  rcases ofText_of_leads hleads rest with ⟨c, s, hsource, hblank, hn, _⟩
  simp only [hsource] at hread ⊢
  unfold Decoder.optional
  simp only [skipBlanks_cons hblank]
  split
  · rename_i heq
    injection heq with hhead
    exact absurd (Option.some.inj hhead) hn
  · simp only [hread, Except.map]

theorem Decoder.reads_none {α : Type} (d : Decoder α) : (Decoder.optional d).Reads null none := by
  intro rest _
  have hnull : Source.ofText null ++ rest =
      some 'n' :: some 'u' :: some 'l' :: some 'l' :: rest := by
    simp [Source.ofText, null]
  simp [Decoder.optional, hnull, skipBlanks_cons, isBlankUnit, skipWord, Except.map]

/-- An optional value is written as `null` or as the value. -/
theorem Decoder.reads_optional {α : Type} {d : Decoder α} {write : α → String}
    (h : ∀ a, d.Reads (write a) a) (hleads : ∀ a, Leads (write a)) (a? : Option α) :
    (Decoder.optional d).Reads (Wire.optional write a?) a? := by
  rcases a? with _ | a
  · exact Decoder.reads_none d
  · exact Decoder.reads_some (h a) (hleads a)

end Wire
end CodeSessions
