import CodeSessions.Script.Eval
import Mathlib.Data.Rat.Floor
import Mathlib.Tactic.Linarith

/-!
# Integers — arithmetic is exact or refused

The operators work on words of 64 bits, and integers know no bounds.  A result is the exact one, or
it is refused because it is no word.

- `Counts value n`: a value that counts as the integer `n`,
- `IsFloorRemainder n r`: a remainder with the sign of the divisor `n`, which leaves a quotient that
  is rounded down (`floor_div_eq`),
- `floor_division`: the corrected division of words has such a remainder,
- `Exact op m n r`: the exact result of an operator,
- `integer_arithmetic`, `remainder_of_division`.

Every such remainder is a word.  Still one is refused: the remainder is found together with the
quotient, and that of the least integer and minus one is too large (`remainder_not_total`).
-/

namespace CodeSessions
namespace Script

/-! ## Values that count as integers -/

inductive Counts : Value → Int → Prop
  | int (n : Int64) : Counts (.int n) n.toInt
  | bool (b : Bool) : Counts (.bool b) (if b then 1 else 0)

theorem Counts.exists_int {value : Value} {n : Int} (h : Counts value n) :
    ∃ m : Int64, Number.ofValue? value = some (.int m) ∧ m.toInt = n := by
  cases h with
  | int m => exact ⟨m, rfl, rfl⟩
  | bool b => cases b <;> exact ⟨_, rfl, rfl⟩

/-! ## Words -/

theorem fit?_eq_some_iff {n : Int} {k : Int64} : fit? n = some k ↔ k.toInt = n := by
  unfold fit?
  constructor
  · intro h
    split at h
    · rename_i hbounds
      cases h
      rw [Int64.toInt_minValue, Int64.toInt_maxValue] at hbounds
      exact Int64.toInt_ofInt_of_le hbounds.1 (by omega)
    · cases h
  · rintro rfl
    rw [if_pos ⟨k.minValue_le_toInt, k.toInt_le⟩, Int64.ofInt_toInt]

theorem fit?_toInt (k : Int64) : fit? k.toInt = some k :=
  fit?_eq_some_iff.2 rfl

theorem fit?_eq_none_iff {n : Int} : fit? n = none ↔ n < -2 ^ 63 ∨ 2 ^ 63 - 1 < n := by
  simp only [fit?, Int64.toInt_minValue, Int64.toInt_maxValue, ite_eq_right_iff, reduceCtorEq,
    imp_false]
  omega

theorem exactInt_eq_ok_iff {n : Int} {v : Value} :
    exactInt n = .ok v ↔ ∃ k : Int64, v = .int k ∧ k.toInt = n := by
  unfold exactInt
  cases hfit : fit? n with
  | none =>
      refine iff_of_false nofun ?_
      rintro ⟨k, rfl, hk⟩
      cases hfit.symm.trans (fit?_eq_some_iff.2 hk)
  | some k =>
      have hk := fit?_eq_some_iff.1 hfit
      constructor
      · intro h
        cases h
        exact ⟨k, rfl, hk⟩
      · rintro ⟨k', rfl, hk'⟩
        rw [Int64.toInt_inj.1 (hk.trans hk'.symm)]
        rfl

theorem exactInt_eq_overflow_iff {n : Int} :
    exactInt n = .error .overflow ↔ n < -2 ^ 63 ∨ 2 ^ 63 - 1 < n := by
  rw [← fit?_eq_none_iff]
  unfold exactInt
  cases fit? n with
  | none => exact iff_of_true rfl rfl
  | some k => exact iff_of_false nofun nofun

/-! ## Division -/

/-- A remainder after division by `n` that is zero or has the sign of `n`. -/
def IsFloorRemainder (n r : Int) : Prop :=
  (0 ≤ r ∧ r < n) ∨ (n < r ∧ r ≤ 0)

/-- What leaves such a remainder is the quotient rounded down. -/
theorem floor_div_eq {m n q r : Int} (h : m = n * q + r) (hr : IsFloorRemainder n r) :
    ⌊(m : ℚ) / n⌋ = q := by
  have hm : (m : ℚ) = n * q + r := by exact_mod_cast h
  rw [Int.floor_eq_iff]
  rcases hr with ⟨hr, hn⟩ | ⟨hn, hr⟩
  · have hpos : (0 : ℚ) < n := by exact_mod_cast lt_of_le_of_lt hr hn
    have hr' : (0 : ℚ) ≤ r := by exact_mod_cast hr
    have hn' : (r : ℚ) < n := by exact_mod_cast hn
    constructor
    · rw [le_div_iff₀ hpos]
      linarith
    · rw [div_lt_iff₀ hpos]
      linarith
  · have hneg : (n : ℚ) < 0 := by exact_mod_cast lt_of_lt_of_le hn hr
    have hr' : (r : ℚ) ≤ 0 := by exact_mod_cast hr
    have hn' : (n : ℚ) < r := by exact_mod_cast hn
    constructor
    · rw [le_div_iff_of_neg hneg]
      linarith
    · rw [div_lt_iff_of_neg hneg]
      linarith

theorem hasQuotient_iff {a b : Int64} :
    hasQuotient a b = true ↔ b.toInt ≠ 0 ∧ ¬ (a.toInt = -2 ^ 63 ∧ b.toInt = -1) := by
  have hzero : b.toInt = 0 ↔ b = 0 := Int64.toInt_inj (y := 0)
  have hone : b.toInt = -1 ↔ b = -1 := Int64.toInt_inj (y := -1)
  have hleast : a.toInt = -2 ^ 63 ↔ a = Int64.minValue := by
    rw [← Int64.toInt_minValue, Int64.toInt_inj]
  simp only [ne_eq, hzero, hone, hleast]
  simp [hasQuotient, imp_iff_not_or]

theorem isRoundedUp_iff {r b : Int64} :
    isRoundedUp r b = true ↔ r.toInt ≠ 0 ∧ ¬ (r.toInt < 0 ↔ b.toInt < 0) := by
  have hzero : r.toInt = 0 ↔ r = 0 := Int64.toInt_inj (y := 0)
  simp [isRoundedUp, hzero, Int64.lt_iff_toInt_lt]

theorem toInt_div_of_hasQuotient {a b : Int64} (h : hasQuotient a b = true) :
    (a / b).toInt = a.toInt.tdiv b.toInt := by
  by_cases hone : b = -1
  · refine Int64.toInt_div_of_ne_left a b fun hleast => ?_
    exact (hasQuotient_iff.1 h).2 ⟨hleast ▸ Int64.toInt_minValue, hone ▸ rfl⟩
  · exact Int64.toInt_div_of_ne_right a b hone

/-- The truncated quotient and its remainder, corrected where the remainder has the wrong sign. -/
theorem floor_division {a b : Int64} (h : hasQuotient a b = true) :
    ∃ q r, floorQuotient? a b = fit? q ∧ floorRemainder? a b = fit? r ∧
      a.toInt = b.toInt * q + r ∧ IsFloorRemainder b.toInt r := by
  have hsum : b.toInt * (a / b).toInt + (a % b).toInt = a.toInt := by
    rw [toInt_div_of_hasQuotient h, Int64.toInt_mod, Int.mul_tdiv_add_tmod]
  have hb := (hasQuotient_iff.1 h).1
  have hbound : (a % b).toInt.natAbs < b.toInt.natAbs := by
    rw [Int64.toInt_mod, Int.natAbs_tmod]
    exact Nat.mod_lt _ (Int.natAbs_pos.2 hb)
  simp only [floorQuotient?, floorRemainder?, quotient?, remainder?, h, if_true,
    Option.bind_eq_bind, Option.bind_some]
  by_cases hup : isRoundedUp (a % b) b = true
  · have hsign := isRoundedUp_iff.1 hup
    refine ⟨(a / b).toInt - 1, (a % b).toInt + b.toInt, if_pos hup, if_pos hup, ?_, ?_⟩
    · rw [Int.mul_sub]
      omega
    · unfold IsFloorRemainder
      omega
  · have hsign := mt isRoundedUp_iff.2 hup
    refine ⟨(a / b).toInt, (a % b).toInt, ?_, ?_, hsum.symm, ?_⟩
    · rw [if_neg hup, fit?_toInt]
    · rw [if_neg hup, fit?_toInt]
    · unfold IsFloorRemainder
      omega

theorem floorQuotient?_eq {a b : Int64} (hb : b.toInt ≠ 0) :
    floorQuotient? a b = fit? ⌊(a.toInt : ℚ) / b.toInt⌋ := by
  by_cases h : hasQuotient a b = true
  · obtain ⟨q, r, hq, -, hsum, hr⟩ := floor_division h
    rw [hq, floor_div_eq hsum hr]
  · -- the quotient that is refused is the one that does not fit
    have hleast : a.toInt = -2 ^ 63 ∧ b.toInt = -1 := by
      by_contra hne
      exact h (hasQuotient_iff.2 ⟨hb, hne⟩)
    have hsum : a.toInt = b.toInt * 2 ^ 63 + 0 := by omega
    have hzero : IsFloorRemainder b.toInt 0 := by
      unfold IsFloorRemainder
      omega
    have hnone : fit? (2 ^ 63) = none := fit?_eq_none_iff.2 (by omega)
    rw [floor_div_eq hsum hzero, hnone]
    simp [floorQuotient?, quotient?, h]

/-- The remainder is smaller than the divisor and so fits. -/
theorem floorRemainder?_eq_some {a b : Int64} (h : hasQuotient a b = true) :
    ∃ r : Int64, floorRemainder? a b = some r ∧
      a.toInt = b.toInt * ⌊(a.toInt : ℚ) / b.toInt⌋ + r.toInt ∧
      IsFloorRemainder b.toInt r.toInt := by
  obtain ⟨q, r, -, hrem, hsum, hr⟩ := floor_division h
  have hq := floor_div_eq hsum hr
  cases hfit : fit? r with
  | none =>
      have hout := fit?_eq_none_iff.1 hfit
      have hge := b.le_toInt
      have hlt := b.toInt_lt
      unfold IsFloorRemainder at hr
      omega
  | some k =>
      have hk := fit?_eq_some_iff.1 hfit
      exact ⟨k, hrem.trans hfit, by rw [hq, hk]; exact hsum, hk ▸ hr⟩

/-! ## Operators -/

/-- The exact result `r` of an operator on integers without bounds. -/
inductive Exact : BinaryOp → Int → Int → Int → Prop
  | add (m n : Int) : Exact .add m n (m + n)
  | subtract (m n : Int) : Exact .subtract m n (m - n)
  | multiply (m n : Int) : Exact .multiply m n (m * n)
  | divide (m : Int) {n : Int} : n ≠ 0 → Exact .divide m n ⌊(m : ℚ) / n⌋

theorem integerOp_eq_exactInt {op : BinaryOp} {a b : Int64} {r : Int}
    (h : Exact op a.toInt b.toInt r) : integerOp op a b = exactInt r := by
  cases h with
  | add => rfl
  | subtract => rfl
  | multiply => rfl
  | divide _ hb =>
      have hne : b ≠ 0 := fun h => hb (h ▸ rfl)
      simp only [integerOp, if_neg hne, floorQuotient?_eq hb, exactInt]

theorem arithmetic_eq_numericOp {op : BinaryOp} {left right : Value} (hleft : left.kind ≠ .text)
    (hright : right.kind ≠ .text) : arithmetic op left right = numericOp op left right := by
  unfold arithmetic
  split
  · exact absurd rfl hleft
  · exact absurd rfl hleft
  · exact absurd rfl hright
  · rfl

/-- Operands that count as integers are taken for them. -/
theorem eval_binary_counts {env : Bindings} {left right : Expr} {a b : Value} {m n : Int}
    (hleft : eval env left = .ok a) (hright : eval env right = .ok b) (ha : Counts a m)
    (hb : Counts b n) :
    ∃ x y : Int64, x.toInt = m ∧ y.toInt = n ∧
      ∀ op ∈ [BinaryOp.add, .subtract, .multiply, .divide, .modulo],
        eval env (.binary op left right) = integerOp op x y := by
  obtain ⟨x, hx, hm⟩ := ha.exists_int
  obtain ⟨y, hy, hn⟩ := hb.exists_int
  have hnumeric : ∀ op, arithmetic op a b = integerOp op x y := by
    intro op
    have hakind : a.kind ≠ .text := by cases ha <;> nofun
    have hbkind : b.kind ≠ .text := by cases hb <;> nofun
    rw [arithmetic_eq_numericOp hakind hbkind]
    simp only [numericOp, hx, hy]
  refine ⟨x, y, hm, hn, fun op hop => ?_⟩
  have hand : op ≠ .and := by rintro rfl; simp at hop
  have hor : op ≠ .or := by rintro rfl; simp at hop
  rw [eval_binary env hand hor, hleft, hright, ← hnumeric op]
  simp only [List.mem_cons, List.not_mem_nil, or_false] at hop
  rcases hop with rfl | rfl | rfl | rfl | rfl <;> rfl

theorem eval_unary_counts {env : Bindings} {operand : Expr} {a : Value} {m : Int}
    (h : eval env operand = .ok a) (ha : Counts a m) :
    eval env (.unary .negate operand) = exactInt (-m) ∧
      eval env (.unary .plus operand) = exactInt m := by
  obtain ⟨x, hx, rfl⟩ := ha.exists_int
  have hunary : ∀ op, eval env (.unary op operand) = applyUnary op a := by
    intro op
    simp only [eval, h]
    rfl
  simp only [hunary, applyUnary, hx, exactInt, fit?_toInt, intOrOverflow, and_self]

/-! ## Exact results -/

/-- An exact result that is given where it has 64 bits, and refused where it has not. -/
structure ExactOrRefused (result : Except Fault Value) (r : Int) : Prop where
  ok_iff : ∀ v, result = .ok v ↔
    (-2 ^ 63 ≤ r ∧ r ≤ 2 ^ 63 - 1) ∧ ∃ k : Int64, v = .int k ∧ k.toInt = r
  overflow_iff : result = .error .overflow ↔ ¬ (-2 ^ 63 ≤ r ∧ r ≤ 2 ^ 63 - 1)
  eq_overflow : ∀ fault, result = .error fault → fault = .overflow

theorem exactOrRefused_exactInt (r : Int) : ExactOrRefused (exactInt r) r where
  ok_iff v := by
    rw [exactInt_eq_ok_iff]
    constructor
    · rintro ⟨k, rfl, rfl⟩
      exact ⟨⟨k.le_toInt, Int.le_sub_one_of_lt k.toInt_lt⟩, k, rfl, rfl⟩
    · exact And.right
  overflow_iff := by
    rw [exactInt_eq_overflow_iff]
    omega
  eq_overflow fault h := by
    unfold exactInt at h
    cases hfit : fit? r with
    | none =>
        rw [hfit] at h
        cases h
        rfl
    | some k =>
        rw [hfit] at h
        cases h

/-- The result of an operator on integers, booleans among them, is the exact one, or is refused.
The quotient is rounded down. -/
theorem integer_arithmetic {env : Bindings} {left right : Expr} {a b : Value} {m n : Int}
    (hleft : eval env left = .ok a) (hright : eval env right = .ok b) (ha : Counts a m)
    (hb : Counts b n) :
    (∀ op r, Exact op m n r → ExactOrRefused (eval env (.binary op left right)) r) ∧
    (∀ op ∈ [BinaryOp.add, .subtract, .multiply, .divide],
      (eval env (.binary op left right) = .error .zeroDivisor ↔ op = .divide ∧ n = 0)) ∧
    ExactOrRefused (eval env (.unary .negate left)) (-m) ∧
    ExactOrRefused (eval env (.unary .plus left)) m ∧
    Fault.zeroDivisor.kind.title = "ZeroDivisionError" ∧
    Fault.overflow.kind.title = "OverflowError" := by
  obtain ⟨x, y, rfl, rfl, hbinary⟩ := eval_binary_counts hleft hright ha hb
  have hexact : ∀ op r, Exact op x.toInt y.toInt r →
      ExactOrRefused (eval env (.binary op left right)) r := by
    intro op r h
    have hop : op ∈ [BinaryOp.add, .subtract, .multiply, .divide, .modulo] := by
      cases h <;> decide
    rw [hbinary op hop, integerOp_eq_exactInt h]
    exact exactOrRefused_exactInt r
  obtain ⟨hnegate, hplus⟩ := eval_unary_counts hleft ha
  refine ⟨hexact, fun op hop => ?_, hnegate ▸ exactOrRefused_exactInt _,
    hplus ▸ exactOrRefused_exactInt _, rfl, rfl⟩
  -- without a zero divisor there is an exact result, and then nothing but its size is at fault
  have hfault : ∀ r, Exact op x.toInt y.toInt r →
      eval env (.binary op left right) ≠ .error .zeroDivisor :=
    fun r h hzero => nomatch (hexact op r h).eq_overflow _ hzero
  simp only [List.mem_cons, List.not_mem_nil, or_false] at hop
  rcases hop with rfl | rfl | rfl | rfl
  · exact iff_of_false (hfault _ (.add _ _)) nofun
  · exact iff_of_false (hfault _ (.subtract _ _)) nofun
  · exact iff_of_false (hfault _ (.multiply _ _)) nofun
  · constructor
    · intro h
      by_contra hne
      exact hfault _ (.divide _ fun hy => hne ⟨rfl, hy⟩) h
    · rintro ⟨-, hy⟩
      rw [hbinary .divide (by decide)]
      simp only [integerOp, if_pos (Int64.toInt_inj.1 hy : y = 0)]

/-- The quotient of minus seven and two lies between minus four and minus three. -/
theorem integer_arithmetic_rounds_down :
    eval .empty (.literal (.int (-7))) = .ok (.int (-7)) ∧
    eval .empty (.literal (.int 2)) = .ok (.int 2) ∧ Counts (.int (-7)) (-7) ∧
    Counts (.int 2) 2 ∧ Exact .divide (-7) 2 (-4) ∧
    eval .empty (.binary .divide (.literal (.int (-7))) (.literal (.int 2))) = .ok (.int (-4)) := by
  have hfloor : ⌊((-7 : Int) : ℚ) / (2 : Int)⌋ = -4 :=
    floor_div_eq (r := 1) (by decide) (by unfold IsFloorRemainder; decide)
  have hexact : Exact .divide (-7) 2 (-4) := hfloor ▸ .divide (-7) (by decide)
  have hleft : eval .empty (.literal (.int (-7))) = .ok (.int (-7)) := by simp only [eval]
  have hright : eval .empty (.literal (.int 2)) = .ok (.int 2) := by simp only [eval]
  have hresult := (integer_arithmetic hleft hright (.int (-7)) (.int 2)).1 .divide (-4) hexact
  exact ⟨hleft, hright, .int (-7), .int 2, hexact,
    (hresult.ok_iff _).2 ⟨by decide, -4, rfl, rfl⟩⟩

/-! ## Remainders -/

/-- This remainder would be zero, and is refused for the quotient that comes with it. -/
theorem integerOp_modulo_least : integerOp .modulo Int64.minValue (-1) = .error .overflow := by
  decide

/-- The remainder has the sign of the divisor and belongs to the quotient that is rounded down.
That of the least integer and minus one, which is zero, is refused. -/
theorem remainder_of_division {env : Bindings} {left right : Expr} {a b : Value} {m n : Int}
    (hleft : eval env left = .ok a) (hright : eval env right = .ok b) (ha : Counts a m)
    (hb : Counts b n) :
    (n ≠ 0 → ¬ (m = -2 ^ 63 ∧ n = -1) →
      ∃ r : Int64, eval env (.binary .modulo left right) = .ok (.int r) ∧
        m = n * ⌊(m : ℚ) / n⌋ + r.toInt ∧
        (0 < n → 0 ≤ r.toInt ∧ r.toInt < n) ∧ (n < 0 → n < r.toInt ∧ r.toInt ≤ 0)) ∧
    (m = -2 ^ 63 → n = -1 → eval env (.binary .modulo left right) = .error .overflow) ∧
    (n = 0 → eval env (.binary .modulo left right) = .error .zeroDivisor) ∧
    Fault.zeroDivisor.kind.title = "ZeroDivisionError" ∧
    Fault.overflow.kind.title = "OverflowError" := by
  obtain ⟨x, y, rfl, rfl, hbinary⟩ := eval_binary_counts hleft hright ha hb
  have hmodulo := hbinary .modulo (by decide)
  have hne : y.toInt ≠ 0 → y ≠ 0 := fun h heq => h (heq ▸ rfl)
  refine ⟨fun hy hfits => ?_, fun hx hy => ?_, fun hy => ?_, rfl, rfl⟩
  · obtain ⟨r, hr, hsum, hsign⟩ := floorRemainder?_eq_some (hasQuotient_iff.2 ⟨hy, hfits⟩)
    refine ⟨r, ?_, hsum, ?_, ?_⟩
    · simp only [hmodulo, integerOp, if_neg (hne hy), hr, intOrOverflow]
    · unfold IsFloorRemainder at hsign
      omega
    · unfold IsFloorRemainder at hsign
      omega
  · have hleast : x = Int64.minValue := Int64.toInt_inj.1 (hx.trans Int64.toInt_minValue.symm)
    have hone : y = -1 := Int64.toInt_inj.1 hy
    rw [hmodulo, hleast, hone, integerOp_modulo_least]
  · simp only [hmodulo, integerOp, if_pos (Int64.toInt_inj.1 hy : y = 0)]

/-- Seven over minus two leaves minus one. -/
theorem remainder_of_division_negative :
    eval .empty (.literal (.int 7)) = .ok (.int 7) ∧
    eval .empty (.literal (.int (-2))) = .ok (.int (-2)) ∧ Counts (.int 7) 7 ∧
    Counts (.int (-2)) (-2) ∧ ⌊((7 : Int) : ℚ) / (-2 : Int)⌋ = -4 ∧
    eval .empty (.binary .modulo (.literal (.int 7)) (.literal (.int (-2)))) =
      .ok (.int (-1)) := by
  have hleft : eval .empty (.literal (.int 7)) = .ok (.int 7) := by simp only [eval]
  have hright : eval .empty (.literal (.int (-2))) = .ok (.int (-2)) := by simp only [eval]
  have hfloor : ⌊((7 : Int) : ℚ) / (-2 : Int)⌋ = -4 :=
    floor_div_eq (r := -1) (by decide) (by unfold IsFloorRemainder; decide)
  obtain ⟨r, heval, hsum, -⟩ :=
    (remainder_of_division hleft hright (.int 7) (.int (-2))).1 (by decide) (by decide)
  have hsum' : (7 : Int) = -2 * -4 + r.toInt := by rwa [← hfloor]
  have hr : r = -1 := Int64.toInt_inj.1 (show r.toInt = -1 by omega)
  exact ⟨hleft, hright, .int 7, .int (-2), hfloor, hr ▸ heval⟩

/-- It is not so that every division by something other than zero leaves a remainder. -/
theorem remainder_not_total :
    ¬ ∀ (env : Bindings) (left right : Expr) (a b : Value) (m n : Int),
      eval env left = .ok a → eval env right = .ok b → Counts a m → Counts b n → n ≠ 0 →
      ∃ r : Int64, eval env (.binary .modulo left right) = .ok (.int r) ∧
        m = n * ⌊(m : ℚ) / n⌋ + r.toInt ∧
        (0 < n → 0 ≤ r.toInt ∧ r.toInt < n) ∧ (n < 0 → n < r.toInt ∧ r.toInt ≤ 0) := by
  intro htotal
  have hleft : eval .empty (.literal (.int Int64.minValue)) = .ok (.int Int64.minValue) := by
    simp only [eval]
  have hright : eval .empty (.literal (.int (-1))) = .ok (.int (-1)) := by simp only [eval]
  obtain ⟨r, hr, -⟩ := htotal _ _ _ _ _ _ _ hleft hright (.int Int64.minValue) (.int (-1))
    (by decide)
  have hrefused : eval .empty (.binary .modulo (.literal (.int Int64.minValue))
      (.literal (.int (-1)))) = .error .overflow := by
    simp only [eval]
    exact integerOp_modulo_least
  cases hrefused.symm.trans hr

end Script
end CodeSessions
