import CodeSessions.Number.Decimal
import Mathlib.Data.String.Basic
import Mathlib.Tactic.GCongr
import Mathlib.Tactic.Positivity

/-!
# Lengths — the texts of numbers are short

The text of a double is its digits, with as many zeros as the point asks for.  How many that are
follows from the range of the exponents.

- `Binary64.InRange` is what the parts of a double keep to,
- `Decimal.Digits.Short` says that digits are few and not far behind the point, which those of a
  double are (`short_shortest`),
- `Decimal.utf8ByteSize_text_le` is the bound for all doubles.

No attempt is made to give the least bounds.
-/

namespace CodeSessions

/-! ## Texts of digits -/

theorem utf8ByteSize_ofList_le (cs : List Char) :
    (String.ofList cs).utf8ByteSize ≤ 4 * cs.length := by
  induction cs with
  | nil => simp
  | cons c cs ih =>
      have hc := c.utf8Size_le_four
      rw [String.utf8ByteSize_ofList] at ih ⊢
      rw [String.utf8Len_cons, List.length_cons]
      omega

theorem length_toDigits_le {n places : Nat} (hplaces : 0 < places) (hn : n < 10 ^ places) :
    (Nat.toDigits 10 n).length ≤ places :=
  (Nat.length_toDigits_le_iff (by decide) hplaces).2 hn

theorem utf8ByteSize_repr_le {n places : Nat} (hplaces : 0 < places) (hn : n < 10 ^ places) :
    n.repr.utf8ByteSize ≤ 4 * places := by
  rw [Nat.repr_eq_ofList_toDigits]
  exact (utf8ByteSize_ofList_le _).trans (Nat.mul_le_mul_left 4 (length_toDigits_le hplaces hn))

/-! ## Parts of doubles -/

namespace Binary64

/-- The values that the parts of a double take. -/
structure InRange (x : Binary64) : Prop where
  mantissa_lt : x.mantissa < 2 ^ 53
  minExponent_le : -1074 ≤ x.exponent
  exponent_le : x.exponent ≤ 971

theorem inRange_of_ofFloat? {x : Float} {parts : Binary64} (h : ofFloat? x = some parts) :
    parts.InRange := by
  simp only [ofFloat?] at h
  have hfraction : x.toBits.toNat % leadingBit < leadingBit := Nat.mod_lt _ (by decide)
  have hbiased : x.toBits.toNat / leadingBit % 2048 < 2048 := Nat.mod_lt _ (by decide)
  have hbit : leadingBit = 2 ^ 52 := rfl
  split at h
  · cases h
  · rename_i hfinite
    split at h
    · cases h
      exact ⟨by simp only; omega, Int.le_refl _, Int.le_of_lt (by simp only [minExponent]; omega)⟩
    · cases h
      exact ⟨by simp only; omega, by simp only; omega, by simp only; omega⟩

theorem InRange.wholePart_lt {x : Binary64} (h : x.InRange) :
    x.wholePart < 2 ^ 53 * 2 ^ 971 := by
  have hexponent : x.exponent.toNat ≤ 971 := by
    have hle := h.exponent_le
    omega
  generalize 971 = bound at hexponent
  unfold wholePart
  split
  · rw [Nat.shiftLeft_eq]
    exact Nat.mul_lt_mul_of_lt_of_le h.mantissa_lt (Nat.pow_le_pow_right (by decide) hexponent)
      (Nat.two_pow_pos bound)
  · calc x.mantissa >>> (-x.exponent).toNat
        ≤ x.mantissa := Nat.shiftRight_le _ _
      _ < 2 ^ 53 := h.mantissa_lt
      _ ≤ 2 ^ 53 * 2 ^ bound := Nat.le_mul_of_pos_right _ (Nat.two_pow_pos bound)

end Binary64

/-! ## Digits -/

namespace Decimal

variable {i : Interval} {n : Nat}

theorem Interval.nearest?_le (h : i.nearest? = some n) : n ≤ i.value * i.num + 1 := by
  have hbelow : i.value * i.num / i.den ≤ i.value * i.num := Nat.div_le_self _ _
  simp only [nearest?] at h
  split at h
  · have hn := Option.some.inj h
    split at hn <;> omega
  · have hn := Option.some.inj h
    omega
  · have hn := Option.some.inj h
    omega
  · cases h

/-- The search for digits ends at one of the places that it tries, or finds none. -/
theorem Interval.shortestFrom_cases (i : Interval) (places fuel : Nat) :
    i.shortestFrom places fuel = ⟨0, 0⟩ ∨
      ∃ tried digits, tried < places + fuel ∧
        (i.scale (i.magnitude - tried)).nearest? = some digits ∧
        i.shortestFrom places fuel = ⟨digits, i.magnitude - tried⟩ := by
  induction fuel generalizing places with
  | zero => exact .inl rfl
  | succ fuel ih =>
      simp only [shortestFrom]
      split
      · rename_i digits hdigits
        exact .inr ⟨places, digits, by omega, hdigits, rfl⟩
      · rcases ih (places + 1) with hnone | ⟨tried, digits, htried, hdigits, heq⟩
        · exact .inl hnone
        · exact .inr ⟨tried, digits, by omega, hdigits, heq⟩

/-- Few digits, and not far behind the point. -/
structure Digits.Short (d : Digits) : Prop where
  digits_lt : d.digits < 10 ^ 650
  exponent_ge : -340 ≤ d.exponent

theorem Digits.Short.strip {d : Digits} (h : d.Short) (fuel : Nat) : (d.strip fuel).Short := by
  induction fuel generalizing d with
  | zero => exact h
  | succ fuel ih =>
      simp only [Digits.strip]
      split
      · refine ih ⟨lt_of_le_of_lt (Nat.div_le_self _ _) h.digits_lt, ?_⟩
        have hexponent := h.exponent_ge
        simp only
        omega
      · exact h

/-- No point is set more than 323 digits to the left of the first digit. -/
theorem Interval.magnitude_ge (hden : i.den ≤ 2 ^ 1076) : -323 ≤ i.magnitude := by
  simp only [magnitude]
  split
  · omega
  · have hquotient : (i.den - 1) / (i.value * i.num) < 10 ^ 324 :=
      calc (i.den - 1) / (i.value * i.num)
          ≤ i.den - 1 := Nat.div_le_self _ _
        _ ≤ i.den := Nat.sub_le _ _
        _ ≤ 2 ^ 1076 := hden
        _ < 10 ^ 324 := by decide +kernel
    have hcount : digitCount ((i.den - 1) / (i.value * i.num)) ≤ 324 :=
      length_toDigits_le (by decide) hquotient
    omega

theorem short_shortest {x : Binary64} (h : x.InRange) : (shortest x).Short := by
  have hmantissa := h.mantissa_lt
  have hleast := h.minExponent_le
  have hgreatest := h.exponent_le
  have hvalue : (Interval.ofBinary64 x).value ≤ 2 ^ 55 := by
    simp only [Interval.ofBinary64]
    omega
  have hnum : (Interval.ofBinary64 x).num ≤ 2 ^ 969 := by
    simp only [Interval.ofBinary64, Nat.one_shiftLeft]
    gcongr
    · decide
    · omega
  have hden : (Interval.ofBinary64 x).den ≤ 2 ^ 1076 := by
    simp only [Interval.ofBinary64, Nat.one_shiftLeft]
    gcongr
    · decide
    · omega
  have hmagnitude := Interval.magnitude_ge hden
  rcases (Interval.ofBinary64 x).shortestFrom_cases 1 17 with
    hnone | ⟨tried, digits, htried, hdigits, heq⟩
  · rw [shortest, hnone]
    exact ⟨by positivity, by decide⟩
  · rw [shortest, heq]
    have hexponent : -340 ≤ (Interval.ofBinary64 x).magnitude - tried := by omega
    refine ⟨?_, hexponent⟩
    generalize (Interval.ofBinary64 x).magnitude - tried = exponent at hdigits hexponent
    have hscale : 10 ^ (-exponent).toNat ≤ 10 ^ 340 := by
      gcongr
      · decide
      · omega
    calc digits
        ≤ (Interval.ofBinary64 x).value *
            ((Interval.ofBinary64 x).num * 10 ^ (-exponent).toNat) + 1 :=
          Interval.nearest?_le hdigits
      _ ≤ 2 ^ 55 * (2 ^ 969 * 10 ^ 340) + 1 := by gcongr
      _ < 10 ^ 650 := by decide +kernel

theorem utf8ByteSize_positional_le {d : Digits} (h : d.Short) :
    d.positional.utf8ByteSize ≤ 4 * 651 := by
  have hexponent := h.exponent_ge
  have hdigits : (Nat.toDigits 10 d.digits).length ≤ 650 :=
    length_toDigits_le (by decide) h.digits_lt
  refine (utf8ByteSize_ofList_le _).trans (Nat.mul_le_mul_left 4 ?_)
  simp only [List.length_append, List.length_cons, List.length_take, List.length_drop,
    List.length_replicate]
  omega

/-- No double has a long text. -/
theorem utf8ByteSize_text_le (x : Float) : (text x).utf8ByteSize ≤ 4096 := by
  unfold text
  split
  · rename_i parts hparts
    have hrange := Binary64.inRange_of_ofFloat? hparts
    have hsign : (if parts.negative then "-" else "").utf8ByteSize ≤ 1 := by
      split <;> decide
    have hmagnitude : (magnitudeText parts).utf8ByteSize ≤ 4 * 651 := by
      unfold magnitudeText
      split
      · have hwhole : parts.wholePart < 10 ^ 309 :=
          hrange.wholePart_lt.trans (by decide +kernel)
        have hrepr := utf8ByteSize_repr_le (by decide) hwhole
        have hpoint : ".0".utf8ByteSize = 2 := by decide
        rw [String.utf8ByteSize_append, hpoint]
        simp only [toString] at hrepr ⊢
        omega
      · exact utf8ByteSize_positional_le ((short_shortest hrange).strip 17)
    rw [String.utf8ByteSize_append]
    omega
  · split
    · decide
    · split <;> decide

end Decimal
end CodeSessions
