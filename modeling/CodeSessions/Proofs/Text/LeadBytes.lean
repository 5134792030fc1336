import CodeSessions.Proofs.Text.CodePoints

/-!
# Lead bytes — which bytes make up a character

The first byte of a character says how many bytes follow it and between which bounds the first of
these lies.

- `Continues low high bytes`: bytes that may stand behind a lead byte,
- `Lead lead n low high value`: what the lead byte asks for,
- `exists_lead_of_encode` and `Lead.exists_encode`: the bytes of a character are a lead byte and
  the further bytes it asks for, and there are no others.
-/

namespace CodeSessions
namespace Utf8

/-! ## Further bytes -/

/-- Bytes that may stand behind a lead byte: the first of them lies between `low` and `high`. -/
def Continues : (low high : UInt8) → List UInt8 → Prop
  | _, _, [] => True
  | low, high, b :: bytes => (low ≤ b ∧ b ≤ high) ∧ Continues 0x80 0xBF bytes

/-- The number whose digits are `value` and those of the further bytes. -/
def assemble (value : Nat) (bytes : List UInt8) : Nat :=
  bytes.foldl (fun value b => value * 64 + (b.toNat - 0x80)) value

theorem assemble_cons (value : Nat) (b : UInt8) (bytes : List UInt8) :
    assemble value (b :: bytes) = assemble (value * 64 + (b.toNat - 0x80)) bytes := by
  rw [assemble, List.foldl_cons, assemble]

theorem Continues.of_append {low high : UInt8} {front rest : List UInt8}
    (h : Continues low high (front ++ rest)) : Continues low high front := by
  induction front generalizing low high with
  | nil => trivial
  | cons b front ih => exact ⟨h.1, ih h.2⟩

theorem continues_replicate (k : Nat) : Continues 0x80 0xBF (List.replicate k 0x80) := by
  induction k with
  | zero => trivial
  | succ k ih => exact ⟨by decide, ih⟩

/-- Any number of bytes may follow. -/
theorem Continues.extend {low high : UInt8} {front : List UInt8} (h : Continues low high front)
    (hle : low ≤ high) (k : Nat) :
    ∃ more, more.length = k ∧ Continues low high (front ++ more) := by
  induction front generalizing low high with
  | nil =>
      cases k with
      | zero => exact ⟨[], rfl, trivial⟩
      | succ k =>
          exact ⟨low :: List.replicate k 0x80, by simp, ⟨UInt8.le_refl low, hle⟩,
            continues_replicate k⟩
  | cons b front ih =>
      obtain ⟨more, hlength, hmore⟩ := ih h.2 (by decide)
      exact ⟨more, hlength, h.1, hmore⟩

theorem toNat_ofNat_digit (v : Nat) : (UInt8.ofNat (v % 64 + 0x80)).toNat = v % 64 + 0x80 := by
  rw [UInt8.toNat_ofNat']
  omega

theorem continues_digits (n v : Nat) : Continues 0x80 0xBF (digits n v) := by
  induction n with
  | zero => trivial
  | succ n ih =>
      refine ⟨?_, ih⟩
      rw [UInt8.le_iff_toNat_le, UInt8.le_iff_toNat_le, toNat_ofNat_digit]
      simp only [UInt8.reduceToNat]
      omega

/-- The first of several digits may be known better. -/
theorem continues_digits_of_le (low high : Nat) {n v : Nat}
    (hlow : low ≤ v / 64 ^ n % 64 + 0x80) (hhigh : v / 64 ^ n % 64 + 0x80 ≤ high)
    (hmax : high < 256) :
    Continues (UInt8.ofNat low) (UInt8.ofNat high) (digits (n + 1) v) := by
  refine ⟨?_, continues_digits n v⟩
  rw [UInt8.le_iff_toNat_le, UInt8.le_iff_toNat_le, toNat_ofNat_digit,
    UInt8.toNat_ofNat_of_lt' (lt_of_le_of_lt (hlow.trans hhigh) hmax),
    UInt8.toNat_ofNat_of_lt' hmax]
  exact ⟨hlow, hhigh⟩

theorem assemble_digits (n v : Nat) : assemble (v / 64 ^ n) (digits n v) = v := by
  induction n with
  | zero => simp [assemble, digits]
  | succ n ih =>
      have hvalue : v / 64 ^ (n + 1) * 64 + v / 64 ^ n % 64 = v / 64 ^ n := by
        rw [pow_succ, ← Nat.div_div_eq_div_mul]
        omega
      rw [digits, assemble_cons, toNat_ofNat_digit, Nat.add_sub_cancel, hvalue, ih]

theorem assemble_div {low high : UInt8} (hhigh : high ≤ 0xBF) {bytes : List UInt8}
    (h : Continues low high bytes) (value : Nat) :
    assemble value bytes / 64 ^ bytes.length = value := by
  induction bytes generalizing low high value with
  | nil => simp [assemble]
  | cons b bytes ih =>
      have hb : b.toNat ≤ 0xBF := h.1.2.trans hhigh
      rw [assemble_cons, List.length_cons, pow_succ, ← Nat.div_div_eq_div_mul,
        ih (UInt8.le_refl _) h.2]
      omega

theorem digits_assemble {low high : UInt8} (hlow : 0x80 ≤ low) (hhigh : high ≤ 0xBF)
    {bytes : List UInt8} (h : Continues low high bytes) (value : Nat) :
    digits bytes.length (assemble value bytes) = bytes := by
  induction bytes generalizing low high value with
  | nil => rfl
  | cons b bytes ih =>
      have hb : 0x80 ≤ b.toNat := hlow.trans h.1.1
      have hb' : b.toNat ≤ 0xBF := h.1.2.trans hhigh
      have hdigit : (value * 64 + (b.toNat - 0x80)) % 64 + 0x80 = b.toNat := by omega
      rw [assemble_cons, List.length_cons, digits, assemble_div (UInt8.le_refl _) h.2,
        ih (UInt8.le_refl _) (UInt8.le_refl _) h.2, hdigit, UInt8.ofNat_toNat]

/-! ## Lead bytes -/

/-- A character that starts with `lead` has `n` further bytes, the first of them between `low` and
`high`, and the digits in front of theirs are `value`.  The bounds leave out the code points that
take fewer bytes, the surrogates, and what is above the last code point. -/
inductive Lead : (lead : UInt8) → (n : Nat) → (low high : UInt8) → (value : Nat) → Prop
  | one {lead : UInt8} {value : Nat} :
      lead.toNat = value → value < 0x80 → Lead lead 0 0x80 0xBF value
  | two {lead : UInt8} {value : Nat} :
      lead.toNat = value + 0xC0 → 0x2 ≤ value → value < 0x20 → Lead lead 1 0x80 0xBF value
  | three {lead : UInt8} {value : Nat} :
      lead.toNat = value + 0xE0 → 0x0 < value → value < 0x10 → value ≠ 0xD →
      Lead lead 2 0x80 0xBF value
  | threeLow {lead : UInt8} : lead.toNat = 0xE0 → Lead lead 2 0xA0 0xBF 0x0
  | threeBelowSurrogates {lead : UInt8} : lead.toNat = 0xED → Lead lead 2 0x80 0x9F 0xD
  | four {lead : UInt8} {value : Nat} :
      lead.toNat = value + 0xF0 → 0x0 < value → value < 0x4 → Lead lead 3 0x80 0xBF value
  | fourLow {lead : UInt8} : lead.toNat = 0xF0 → Lead lead 3 0x90 0xBF 0x0
  | fourHigh {lead : UInt8} : lead.toNat = 0xF4 → Lead lead 3 0x80 0x8F 0x4

variable {lead low high : UInt8} {n value : Nat} {bytes rest : List UInt8} {c : Char}

theorem Lead.bounds (h : Lead lead n low high value) : 0x80 ≤ low ∧ low ≤ high ∧ high ≤ 0xBF := by
  cases h <;> decide

theorem Lead.unique {n' : Nat} {low' high' : UInt8} {value' : Nat}
    (h : Lead lead n low high value) (h' : Lead lead n' low' high' value') :
    n' = n ∧ low' = low ∧ high' = high ∧ value' = value := by
  cases h <;> cases h' <;> grind

/-! ## The bytes of a character -/

theorem toNat_ofNat {v : Nat} (h : v.isValidChar) : (Char.ofNat v).toNat = v := by
  rw [Char.ofNat, dif_pos h]
  rfl

theorem Form.exists_lead {offset first last v : Nat} (h : Form n offset first last)
    (hfirst : first ≤ v) (hlast : v ≤ last) (hvalid : v < 0xD800 ∨ 0xDFFF < v)
    (hlead : lead.toNat = v / 64 ^ n + offset) :
    ∃ low high, Lead lead n low high (v / 64 ^ n) ∧ Continues low high (digits n v) := by
  cases h with
  | one =>
      rw [pow_zero, Nat.div_one] at hlead ⊢
      exact ⟨_, _, .one hlead (by omega), trivial⟩
  | two => exact ⟨_, _, .two hlead (by omega) (by omega), continues_digits 1 v⟩
  | three =>
      rcases Nat.eq_zero_or_pos (v / 64 ^ 2) with hzero | hpos
      · have hcontinues : Continues 0xA0 0xBF (digits 2 v) :=
          continues_digits_of_le 0xA0 0xBF (by omega) (by omega) (by omega)
        rw [hzero] at hlead ⊢
        exact ⟨_, _, .threeLow hlead, hcontinues⟩
      · by_cases hsurrogates : v / 64 ^ 2 = 0xD
        · have hcontinues : Continues 0x80 0x9F (digits 2 v) :=
            continues_digits_of_le 0x80 0x9F (by omega) (by omega) (by omega)
          rw [hsurrogates] at hlead ⊢
          exact ⟨_, _, .threeBelowSurrogates hlead, hcontinues⟩
        · exact ⟨_, _, .three hlead hpos (by omega) hsurrogates, continues_digits 2 v⟩
  | four =>
      rcases Nat.eq_zero_or_pos (v / 64 ^ 3) with hzero | hpos
      · have hcontinues : Continues 0x90 0xBF (digits 3 v) :=
          continues_digits_of_le 0x90 0xBF (by omega) (by omega) (by omega)
        rw [hzero] at hlead ⊢
        exact ⟨_, _, .fourLow hlead, hcontinues⟩
      · by_cases hhighest : v / 64 ^ 3 = 0x4
        · have hcontinues : Continues 0x80 0x8F (digits 3 v) :=
            continues_digits_of_le 0x80 0x8F (by omega) (by omega) (by omega)
          rw [hhighest] at hlead ⊢
          exact ⟨_, _, .fourHigh hlead, hcontinues⟩
        · exact ⟨_, _, .four hlead hpos (by omega), continues_digits 3 v⟩

/-- The bytes of a character are a lead byte and the further bytes it asks for. -/
theorem exists_lead_of_encode (h : String.utf8EncodeChar c = lead :: bytes) :
    ∃ low high value, Lead lead bytes.length low high value ∧ Continues low high bytes ∧
      assemble value bytes = c.toNat := by
  have hvalid : c.toNat < 0xD800 ∨ 0xDFFF < c.toNat := c.valid.imp id And.left
  obtain ⟨n, offset, first, last, hform, hfirst, hlast⟩ := exists_form c
  rw [hform.encode_eq hfirst hlast] at h
  obtain ⟨rfl, rfl⟩ := List.cons.inj h
  obtain ⟨low, high, hlead, hcontinues⟩ := hform.exists_lead hfirst hlast hvalid
    (UInt8.toNat_ofNat_of_lt' (hform.lead_lt hlast))
  rw [length_digits]
  exact ⟨low, high, _, hlead, hcontinues, assemble_digits n c.toNat⟩

/-- The digits of the lead byte and of the first further byte. -/
theorem exists_head_digits (h : Continues low high bytes) (hn : bytes.length = n + 1)
    (value : Nat) : ∃ b : UInt8, low.toNat ≤ b.toNat ∧ b.toNat ≤ high.toNat ∧
      assemble value bytes / 64 ^ n = value * 64 + (b.toNat - 0x80) := by
  obtain ⟨b, further, rfl⟩ := List.exists_cons_of_length_eq_add_one hn
  obtain rfl : further.length = n := Nat.succ.inj hn
  rw [assemble_cons]
  exact ⟨b, h.1.1, h.1.2, assemble_div (UInt8.le_refl _) h.2 _⟩

theorem Lead.exists_form (h : Lead lead n low high value) (hn : bytes.length = n)
    (hbytes : Continues low high bytes) :
    ∃ offset first last, Form n offset first last ∧ first ≤ assemble value bytes ∧
      assemble value bytes ≤ last ∧ (assemble value bytes).isValidChar ∧
      lead.toNat = value + offset := by
  have hvalue := assemble_div h.bounds.2.2 hbytes value
  have hhead := fun k (hk : n = k + 1) => exists_head_digits hbytes (hn.trans hk) value
  rw [hn] at hvalue
  cases h with
  | one hlead hlast =>
      rw [pow_zero, Nat.div_one] at hvalue
      exact ⟨_, _, _, .one, Nat.zero_le _, by omega, .inl (by omega), hlead⟩
  | two hlead hfirst hlast =>
      exact ⟨_, _, _, .two, by omega, by omega, .inl (by omega), hlead⟩
  | three hlead hfirst hlast hsurrogates =>
      refine ⟨_, _, _, .three, by omega, by omega, ?_, hlead⟩
      unfold Nat.isValidChar
      omega
  | threeLow hlead =>
      obtain ⟨b, hlow, hhigh, hdigits⟩ := hhead 1 rfl
      simp only [UInt8.reduceToNat] at hlow hhigh
      exact ⟨_, _, _, .three, by omega, by omega, .inl (by omega), hlead⟩
  | threeBelowSurrogates hlead =>
      obtain ⟨b, hlow, hhigh, hdigits⟩ := hhead 1 rfl
      simp only [UInt8.reduceToNat] at hlow hhigh
      exact ⟨_, _, _, .three, by omega, by omega, .inl (by omega), hlead⟩
  | four hlead hfirst hlast =>
      exact ⟨_, _, _, .four, by omega, by omega, .inr (by omega), hlead⟩
  | fourLow hlead =>
      obtain ⟨b, hlow, hhigh, hdigits⟩ := hhead 2 rfl
      simp only [UInt8.reduceToNat] at hlow hhigh
      exact ⟨_, _, _, .four, by omega, by omega, .inr (by omega), hlead⟩
  | fourHigh hlead =>
      obtain ⟨b, hlow, hhigh, hdigits⟩ := hhead 2 rfl
      simp only [UInt8.reduceToNat] at hlow hhigh
      exact ⟨_, _, _, .four, by omega, by omega, .inr (by omega), hlead⟩

/-- A lead byte and the further bytes it asks for are the bytes of a character. -/
theorem Lead.exists_encode (h : Lead lead bytes.length low high value)
    (hbytes : Continues low high bytes) : ∃ c, String.utf8EncodeChar c = lead :: bytes := by
  obtain ⟨hlow, -, hhigh⟩ := h.bounds
  obtain ⟨offset, first, last, hform, hfirst, hlast, hvalid, hlead⟩ := h.exists_form rfl hbytes
  have hcode := toNat_ofNat hvalid
  rw [← hcode] at hfirst hlast
  refine ⟨_, (hform.encode_eq hfirst hlast).trans ?_⟩
  rw [hcode, assemble_div hhigh hbytes, digits_assemble hlow hhigh hbytes, ← hlead,
    UInt8.ofNat_toNat]

end Utf8
end CodeSessions
