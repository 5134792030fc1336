import CodeSessions.Proofs.Text.CodePoints

/-!
# Byte order — texts are in the order of their bytes

- `digits_lt` and `encode_lt`: the bytes of the lesser character are the lesser ones, whatever
  follows,
- `toUTF8_lt_iff`: the order of the code points of two texts is that of their bytes.
-/

namespace CodeSessions
namespace Utf8

/-! ## Characters -/

theorem digits_lt {n v w : Nat} (hhead : v / 64 ^ n = w / 64 ^ n) (hlt : v < w)
    (x y : List UInt8) : digits n v ++ x < digits n w ++ y := by
  induction n with
  | zero => simp only [pow_zero, Nat.div_one] at hhead; omega
  | succ n ih =>
      have hnext : v / 64 ^ n / 64 = w / 64 ^ n / 64 := by
        rw [Nat.div_div_eq_div_mul, Nat.div_div_eq_div_mul, ← pow_succ, hhead]
      have hle : v / 64 ^ n ≤ w / 64 ^ n := Nat.div_le_div_right hlt.le
      by_cases heq : v / 64 ^ n = w / 64 ^ n
      · -- the digits differ further behind
        rw [digits, digits, heq]
        exact List.Lex.cons (ih heq)
      · refine List.Lex.rel (UInt8.lt_iff_toNat_lt.2 ?_)
        simp only [UInt8.toNat_ofNat']
        omega

theorem Form.offset_eq {n offset first last offset' first' last' : Nat}
    (h : Form n offset first last) (h' : Form n offset' first' last') : offset' = offset := by
  cases h <;> cases h' <;> rfl

/-- Greater code points take at least as many bytes. -/
theorem Form.le_of_lt {n offset first last n' offset' first' last' v w : Nat}
    (h : Form n offset first last) (h' : Form n' offset' first' last') (hv : first ≤ v)
    (hw : w ≤ last') (hlt : v < w) : n ≤ n' := by
  cases h <;> cases h' <;> omega

/-- A lead byte of more bytes is a greater one. -/
theorem Form.lead_lt_lead {n offset first last n' offset' first' last' v w : Nat}
    (h : Form n offset first last) (h' : Form n' offset' first' last') (hv : v ≤ last)
    (hn : n < n') : v / 64 ^ n + offset < w / 64 ^ n' + offset' := by
  cases h <;> cases h' <;> simp only [pow_zero, Nat.div_one, Nat.reducePow] <;> omega

theorem encode_lt {c d : Char} (h : c < d) (x y : List UInt8) :
    String.utf8EncodeChar c ++ x < String.utf8EncodeChar d ++ y := by
  have hlt : c.toNat < d.toNat := h
  obtain ⟨n, offset, first, last, hc, hfirst, hlast⟩ := exists_form c
  obtain ⟨n', offset', first', last', hd, hfirst', hlast'⟩ := exists_form d
  have hlead := hc.lead_lt hlast
  have hlead' := hd.lead_lt hlast'
  rw [hc.encode_eq hfirst hlast, hd.encode_eq hfirst' hlast']
  have hrel (hbytes : c.toNat / 64 ^ n + offset < d.toNat / 64 ^ n' + offset') :
      UInt8.ofNat (c.toNat / 64 ^ n + offset) < UInt8.ofNat (d.toNat / 64 ^ n' + offset') := by
    rwa [UInt8.lt_iff_toNat_lt, UInt8.toNat_ofNat_of_lt' hlead, UInt8.toNat_ofNat_of_lt' hlead']
  rcases (hc.le_of_lt hd hfirst hlast' hlt).lt_or_eq with hn | rfl
  · exact List.Lex.rel (hrel (hc.lead_lt_lead hd hlast hn))
  · obtain rfl := hc.offset_eq hd
    have hle : c.toNat / 64 ^ n ≤ d.toNat / 64 ^ n := Nat.div_le_div_right hlt.le
    by_cases heq : c.toNat / 64 ^ n = d.toNat / 64 ^ n
    · rw [heq]
      exact List.Lex.cons (digits_lt heq hlt x y)
    · exact List.Lex.rel (hrel (by omega))

/-! ## Texts -/

theorem flatMap_encode_lt {s t : List Char} (h : s < t) :
    s.flatMap String.utf8EncodeChar < t.flatMap String.utf8EncodeChar := by
  induction h with
  | @nil d t =>
      obtain ⟨b, bytes, hd⟩ := List.exists_cons_of_ne_nil (String.utf8EncodeChar_ne_nil (c := d))
      rw [List.flatMap_cons, hd]
      exact List.Lex.nil
  | rel hlt => exact encode_lt hlt _ _
  | @cons c s t _ ih =>
      simp only [List.flatMap_cons]
      induction String.utf8EncodeChar c with
      | nil => exact ih
      | cons b bytes ih => exact List.Lex.cons ih

/-- The bytes of two texts are in the order of the texts. -/
theorem toUTF8_lt_iff {s t : String} :
    s.toUTF8.data.toList < t.toUTF8.data.toList ↔ s < t := by
  rw [toList_toUTF8, toList_toUTF8]
  constructor
  · intro h
    by_contra hnot
    rcases (not_lt.1 hnot).lt_or_eq with hlt | rfl
    · exact List.lt_asymm h (flatMap_encode_lt hlt)
    · exact List.lt_irrefl _ h
  · exact flatMap_encode_lt

end Utf8
end CodeSessions
