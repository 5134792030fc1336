import Mathlib.Data.String.Basic

/-!
# Code points — the bytes of a character

In UTF-8 a character is a lead byte and up to three further bytes, which hold the digits of its code
point to base 64.

- `digits n v`: the last `n` digits of `v`, one a byte,
- `Form n offset first last`: the code points that take `n` further bytes,
- `Form.encode_eq` and `exists_form`: each character has one of these forms, and its bytes are the
  ones that the form says,
- `toList_toUTF8`: the bytes of a text are those of its characters.
-/

namespace CodeSessions

/-! ## Bytes as lists -/

theorem toList_loop_eq (bytes : ByteArray) (i : Nat) (done : List UInt8) :
    ByteArray.toList.loop bytes i done = done.reverse ++ bytes.data.toList.drop i := by
  -- by induction on the number of bytes that are left
  induction hleft : bytes.size - i generalizing i done with
  | zero =>
      have hend : bytes.data.toList.length ≤ i := by
        simp only [Array.length_toList, ByteArray.size_data]
        omega
      rw [ByteArray.toList.loop, if_neg (by omega), List.drop_eq_nil_of_le hend, List.append_nil]
  | succ left ih =>
      have hlt : i < bytes.data.size := by
        simp only [ByteArray.size_data]
        omega
      have hget : bytes.get! i = bytes.data[i] := by
        simp only [ByteArray.get!, getElem!_pos bytes.data i hlt]
      have hdrop : bytes.data.toList.drop i = bytes.data[i] :: bytes.data.toList.drop (i + 1) :=
        List.drop_eq_getElem_cons (by simpa using hlt)
      rw [ByteArray.toList.loop, if_pos (show i < bytes.size from hlt), ih (i + 1) _ (by omega),
        hget, hdrop]
      simp

theorem toList_eq (bytes : ByteArray) : bytes.toList = bytes.data.toList := by
  simp [ByteArray.toList, toList_loop_eq]

namespace Utf8

/-! ## Digits -/

/-- The last `n` digits to base 64, each as a byte between `0x80` and `0xBF`. -/
def digits : (n v : Nat) → List UInt8
  | 0, _ => []
  | n + 1, v => UInt8.ofNat (v / 64 ^ n % 64 + 0x80) :: digits n v

@[simp]
theorem length_digits (n v : Nat) : (digits n v).length = n := by
  induction n with
  | zero => rfl
  | succ n ih => rw [digits, List.length_cons, ih]

/-! ## Forms -/

/-- The code points from `first` to `last` take `n` bytes behind the lead byte, which holds the
digits in front of the others and says by `offset` how many these are. -/
inductive Form : (n offset first last : Nat) → Prop
  | one : Form 0 0x00 0x0 0x7F
  | two : Form 1 0xC0 0x80 0x7FF
  | three : Form 2 0xE0 0x800 0xFFFF
  | four : Form 3 0xF0 0x10000 0x10FFFF

theorem toNat_lt (c : Char) : c.toNat < 0x110000 := by
  rcases c.valid with hlow | ⟨-, hhigh⟩
  · exact lt_trans hlow (by decide)
  · exact hhigh

theorem exists_form (c : Char) :
    ∃ n offset first last, Form n offset first last ∧ first ≤ c.toNat ∧ c.toNat ≤ last := by
  have hmax := toNat_lt c
  by_cases hone : c.toNat ≤ 0x7F
  · exact ⟨_, _, _, _, .one, Nat.zero_le _, hone⟩
  · by_cases htwo : c.toNat ≤ 0x7FF
    · exact ⟨_, _, _, _, .two, by omega, htwo⟩
    · by_cases hthree : c.toNat ≤ 0xFFFF
      · exact ⟨_, _, _, _, .three, by omega, hthree⟩
      · exact ⟨_, _, _, _, .four, by omega, by omega⟩

/-- The lead byte is a byte: its value is not cut off. -/
theorem Form.lead_lt {n offset first last v : Nat} (h : Form n offset first last) (hv : v ≤ last) :
    v / 64 ^ n + offset < 256 := by
  cases h <;> simp only [pow_zero, Nat.div_one, Nat.reducePow] <;> omega

theorem Form.encode_eq {n offset first last : Nat} {c : Char} (h : Form n offset first last)
    (hfirst : first ≤ c.toNat) (hlast : c.toNat ≤ last) :
    String.utf8EncodeChar c = UInt8.ofNat (c.toNat / 64 ^ n + offset) :: digits n c.toNat := by
  have hcode : c.val.toNat = c.toNat := rfl
  cases h with
  | one => simp [String.utf8EncodeChar, hcode, hlast, digits]
  | two =>
      have hnot : ¬ c.toNat ≤ 0x7F := by omega
      have hlead : c.toNat / 64 % 32 = c.toNat / 64 := by omega
      simp [String.utf8EncodeChar, hcode, hlast, hnot, hlead, digits]
  | three =>
      have hnot : ¬ c.toNat ≤ 0x7F ∧ ¬ c.toNat ≤ 0x7FF := by omega
      have hlead : c.toNat / 4096 % 16 = c.toNat / 4096 := by omega
      simp [String.utf8EncodeChar, hcode, hlast, hnot, hlead, digits]
  | four =>
      have hnot : ¬ c.toNat ≤ 0x7F ∧ ¬ c.toNat ≤ 0x7FF ∧ ¬ c.toNat ≤ 0xFFFF := by omega
      have hlead : c.toNat / 262144 % 8 = c.toNat / 262144 := by omega
      simp [String.utf8EncodeChar, hcode, hnot, hlead, digits]

/-! ## Texts -/

theorem toList_toUTF8 (s : String) :
    s.toUTF8.data.toList = s.toList.flatMap String.utf8EncodeChar := by
  rw [String.toUTF8, ← String.utf8Encode_toList, List.utf8Encode, List.data_toByteArray]

theorem fromUTF8?_toUTF8 (s : String) : String.fromUTF8? s.toUTF8 = some s := by
  have hvalid : s.toUTF8.IsValidUTF8 := s.isValidUTF8
  simp only [String.fromUTF8?, hvalid, dite_true]
  rfl

theorem toUTF8_of_fromUTF8? {bytes : ByteArray} {s : String}
    (h : String.fromUTF8? bytes = some s) : bytes = s.toUTF8 := by
  rw [String.fromUTF8?] at h
  split at h
  · cases h
    rfl
  · cases h

end Utf8
end CodeSessions
