import CodeSessions.Http.Percent
import CodeSessions.Proofs.Text.CodePoints

/-!
# Encoding — any text survives as a path segment

- `decode?_encode`: a text that has been encoded byte by byte is read back as it was,
- `isSegmentChar_of_mem_encode`: an encoded text has no character with a meaning in a target,
- `encode_ne_empty`: only the empty text is encoded as an empty one.
-/

namespace CodeSessions
namespace Percent

/-! ## Digits -/

/-- The byte of a hexadecimal digit. -/
def hexByte (n : Nat) : UInt8 :=
  UInt8.ofNat (hexDigit n).toNat

/-- A hexadecimal digit is one byte, which is read back, and it has no other meaning in a target. -/
theorem hexDigit_spec {n : Nat} (hn : n < 16) :
    String.utf8EncodeChar (hexDigit n) = [hexByte n] ∧
      hexValue? (hexByte n) = some (UInt8.ofNat n) ∧
      hexDigit n ≠ '/' ∧ hexDigit n ≠ '?' ∧ hexDigit n ≠ '#' := by
  have hall : ∀ m : Fin 16, String.utf8EncodeChar (hexDigit m) = [hexByte m] ∧
      hexValue? (hexByte m) = some (UInt8.ofNat m) ∧
      hexDigit m ≠ '/' ∧ hexDigit m ≠ '?' ∧ hexDigit m ≠ '#' := by decide
  exact hall ⟨n, hn⟩

theorem halves_lt (b : UInt8) : b.toNat / 16 < 16 ∧ b.toNat % 16 < 16 := by
  have hb := b.toNat_lt
  omega

theorem flatMap_encodeByte (b : UInt8) :
    (encodeByte b).flatMap String.utf8EncodeChar =
      [0x25, hexByte (b.toNat / 16), hexByte (b.toNat % 16)] := by
  have hpercent : String.utf8EncodeChar '%' = [0x25] := by decide
  have hhigh := (hexDigit_spec (halves_lt b).1).1
  have hlow := (hexDigit_spec (halves_lt b).2).1
  simp [encodeByte, hpercent, hhigh, hlow]

theorem decodeBytes_encodeByte (b : UInt8) (rest : List UInt8) :
    decodeBytes (0x25 :: hexByte (b.toNat / 16) :: hexByte (b.toNat % 16) :: rest) =
      b :: decodeBytes rest := by
  have hhigh := (hexDigit_spec (halves_lt b).1).2.1
  have hlow := (hexDigit_spec (halves_lt b).2).2.1
  have hbyte : UInt8.ofNat (b.toNat / 16) * 16 + UInt8.ofNat (b.toNat % 16) = b := by
    apply UInt8.toNat_inj.1
    have hb := b.toNat_lt
    simp
    omega
  rw [decodeBytes, hhigh, hlow]
  simp only [hbyte]

/-! ## Texts -/

theorem decodeBytes_flatMap (bytes : List UInt8) :
    decodeBytes ((bytes.flatMap encodeByte).flatMap String.utf8EncodeChar) = bytes := by
  induction bytes with
  | nil => rfl
  | cons b bytes ih =>
      rw [List.flatMap_cons, List.flatMap_append, flatMap_encodeByte]
      simp only [List.cons_append, List.nil_append]
      rw [decodeBytes_encodeByte, ih]

/-- Percent encoding loses nothing. -/
theorem decode?_encode (s : String) : decode? (encode s) = some s := by
  have hbytes : (encode s).toUTF8.toList =
      (s.toUTF8.toList.flatMap encodeByte).flatMap String.utf8EncodeChar := by
    rw [toList_eq]
    simp [encode, String.ofList, List.utf8Encode]
  have hwhole : ByteArray.mk s.toUTF8.toList.toArray = s.toUTF8 := by
    rw [toList_eq]
  rw [decode?, hbytes, decodeBytes_flatMap, hwhole, Utf8.fromUTF8?_toUTF8]

/-- A character that neither ends a segment nor the path. -/
def isSegmentChar (c : Char) : Bool :=
  c != '/' && c != '?' && c != '#'

theorem isSegmentChar_of_mem_encode {s : String} {c : Char} (hc : c ∈ (encode s).toList) :
    isSegmentChar c = true := by
  simp only [encode, String.toList_ofList, List.mem_flatMap] at hc
  rcases hc with ⟨b, _, hc⟩
  have hhigh := (hexDigit_spec (halves_lt b).1).2.2
  have hlow := (hexDigit_spec (halves_lt b).2).2.2
  simp only [encodeByte, List.mem_cons, List.not_mem_nil, or_false] at hc
  rcases hc with rfl | rfl | rfl
  · decide
  · simp [isSegmentChar, hhigh]
  · simp [isSegmentChar, hlow]

theorem encode_ne_empty {s : String} (hs : s ≠ "") : encode s ≠ "" := by
  intro hempty
  have hnothing : encode "" = "" := by simp [encode, toList_eq]
  have hback := decode?_encode s
  rw [hempty, ← hnothing, decode?_encode] at hback
  exact hs (Option.some.inj hback).symm

end Percent
end CodeSessions
