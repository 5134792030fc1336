import CodeSessions.Proofs.Script.Integers
import CodeSessions.Proofs.Text.ByteOrder

/-!
# Comparisons — equality and order of values agree

Equality and order are found separately, each with its own rules for values of different kinds.
Among numbers and among texts both come from one order, and no two other values have an order.

- `Holds op a b` and `Fails op a b`: the comparison succeeds, and says yes or no,
- `ComparesAs a b x y`: the comparisons of `a` and `b` say what a linear order says of `x` and `y`;
  `Counts.comparesAs` has integers for numbers, and `comparesAs_text` has texts for themselves,
- `holds_equal_iff`: what is equal, with booleans next to integers,
- `comparisons_cohere`.
-/

namespace CodeSessions
namespace Script

variable {a b : Value} {op : BinaryOp}

/-! ## Outcomes -/

def Holds (op : BinaryOp) (a b : Value) : Prop :=
  applyBinary op a b = .ok (.bool true)

def Fails (op : BinaryOp) (a b : Value) : Prop :=
  applyBinary op a b = .ok (.bool false)

/-- The comparison succeeds and says whether `p`. -/
def Says (op : BinaryOp) (a b : Value) (p : Prop) : Prop :=
  ∃ holds : Bool, applyBinary op a b = .ok (.bool holds) ∧ (holds = true ↔ p)

theorem Says.holds_iff {p : Prop} (h : Says op a b p) : Holds op a b ↔ p := by
  obtain ⟨holds, happly, hp⟩ := h
  rw [← hp, Holds, happly]
  simp

theorem Says.fails_iff {p : Prop} (h : Says op a b p) : Fails op a b ↔ ¬ p := by
  obtain ⟨holds, happly, hp⟩ := h
  rw [← hp, Fails, happly]
  simp

theorem Says.holds_or_fails {p : Prop} (h : Says op a b p) : Holds op a b ∨ Fails op a b := by
  rw [h.holds_iff, h.fails_iff]
  exact em p

/-! ## Values from a linear order -/

section Order

variable {α : Type} [LinearOrder α] {x y : α}

/-- What a comparison is about. -/
def Relates (op : BinaryOp) (x y : α) : Prop :=
  match op with
  | .equal => x = y
  | .notEqual => x ≠ y
  | .less => x < y
  | .greater => y < x
  | .lessEqual => x ≤ y
  | .greaterEqual => y ≤ x
  | _ => False

/-- The values stand to each other as `x` and `y` do. -/
def ComparesAs (a b : Value) (x y : α) : Prop :=
  ∀ op, op.isComparison = true → Says op a b (Relates op x y)

/-- Both functions behind the comparisons have to know of the order. -/
theorem comparesAs_of_order (hequal : valuesEqual a b = true ↔ x = y)
    (horder : ∀ op, order op a b = .ok (some (compare x y))) : ComparesAs a b x y := by
  intro op hop
  cases op with
  | equal => exact ⟨_, rfl, hequal⟩
  | notEqual =>
      refine ⟨!valuesEqual a b, rfl, ?_⟩
      rw [Bool.not_eq_true', ← Bool.not_eq_true, hequal]
      rfl
  | less =>
      refine ⟨_, by rw [applyBinary, horder]; rfl, ?_⟩
      simp [Relates, compare_lt_iff_lt]
  | greater =>
      refine ⟨_, by rw [applyBinary, horder]; rfl, ?_⟩
      simp [Relates, compare_gt_iff_gt]
  | lessEqual =>
      refine ⟨_, by rw [applyBinary, horder]; rfl, ?_⟩
      simp [Relates, compare_lt_iff_lt, le_iff_lt_or_eq]
  | greaterEqual =>
      refine ⟨_, by rw [applyBinary, horder]; rfl, ?_⟩
      simp [Relates, compare_gt_iff_gt, le_iff_lt_or_eq, @eq_comm _ y]
  | _ => cases hop

end Order

theorem valuesEqual_of_counts {m n : Int} (ha : Counts a m) (hb : Counts b n) :
    valuesEqual a b = true ↔ m = n := by
  obtain ⟨x, hx, rfl⟩ := ha.exists_int
  obtain ⟨y, hy, rfl⟩ := hb.exists_int
  simp only [valuesEqual, hx, hy, beq_iff_eq, Int64.toInt_inj]

theorem Counts.comparesAs {m n : Int} (ha : Counts a m) (hb : Counts b n) : ComparesAs a b m n := by
  refine comparesAs_of_order (valuesEqual_of_counts ha hb) fun op => ?_
  obtain ⟨x, hx, rfl⟩ := ha.exists_int
  obtain ⟨y, hy, rfl⟩ := hb.exists_int
  unfold order
  split
  · cases ha
  · simp only [hx, hy]

theorem comparesAs_text (s t : String) : ComparesAs (.text s) (.text t) s t := by
  refine comparesAs_of_order (by simp [valuesEqual, Number.ofValue?, Value.same]) fun op => ?_
  rw [LinearOrder.compare_eq_compareOfLessAndEq]
  rfl

/-! ## Values without floats -/

def IsPlain (v : Value) : Prop :=
  v.kind ≠ .float

/-- Two numbers, or two texts. -/
inductive Comparable : Value → Value → Prop
  | numbers {a b : Value} {m n : Int} : Counts a m → Counts b n → Comparable a b
  | texts (s t : String) : Comparable (.text s) (.text t)

theorem Counts.unique {m n : Int} (h : Counts a m) (h' : Counts a n) : n = m := by
  cases h <;> cases h' <;> rfl

theorem IsPlain.ofValue?_eq_none (h : IsPlain a) (hnone : ∀ n, ¬ Counts a n) :
    Number.ofValue? a = none := by
  cases a with
  | bool b => exact absurd (.bool b) (hnone _)
  | int n => exact absurd (.int n) (hnone _)
  | float x => exact absurd rfl h
  | none | text s => rfl

theorem IsPlain.same_iff (h : IsPlain a) : a.same b = true ↔ a = b := by
  cases a with
  | float x => exact absurd rfl h
  | _ => cases b <;> simp [Value.same]

/-- Where one of two values is no number, both are taken as they are. -/
theorem valuesEqual_eq_same (h : Number.ofValue? a = none ∨ Number.ofValue? b = none) :
    valuesEqual a b = a.same b := by
  unfold valuesEqual
  split
  · simp_all
  · simp_all
  · rfl

theorem order_eq_error (h : Number.ofValue? a = none ∨ Number.ofValue? b = none)
    (htexts : ∀ s t, ¬ (a = .text s ∧ b = .text t)) (op : BinaryOp) :
    order op a b = .error (.unorderable op a.kind b.kind) := by
  unfold order
  split
  · exact absurd ⟨rfl, rfl⟩ (htexts _ _)
  · split
    · simp_all
    · simp_all
    · rfl

theorem ofValue?_eq_none_or (ha : IsPlain a) (hb : IsPlain b)
    (h : ∀ m n, Counts a m → ¬ Counts b n) :
    Number.ofValue? a = none ∨ Number.ofValue? b = none := by
  by_cases hnone : ∀ m, ¬ Counts a m
  · exact .inl (ha.ofValue?_eq_none hnone)
  · push Not at hnone
    obtain ⟨m, hm⟩ := hnone
    exact .inr (hb.ofValue?_eq_none fun n => h m n hm)

/-- A boolean is equal to the integer that it counts as, and no other values of two kinds are. -/
theorem holds_equal_iff (ha : IsPlain a) (hb : IsPlain b) :
    Holds .equal a b ↔ a = b ∨ ∃ n, Counts a n ∧ Counts b n := by
  have hvalues : Holds .equal a b ↔ valuesEqual a b = true := by simp [Holds, applyBinary]
  rw [hvalues]
  by_cases hcounts : ∃ m n, Counts a m ∧ Counts b n
  · obtain ⟨m, n, hm, hn⟩ := hcounts
    rw [valuesEqual_of_counts hm hn]
    constructor
    · rintro rfl
      exact .inr ⟨m, hm, hn⟩
    · rintro (rfl | ⟨k, hk, hk'⟩)
      · exact hn.unique hm
      · exact (hk.unique hm).trans (hn.unique hk')
  · have hnone := ofValue?_eq_none_or ha hb fun m n hm hn => hcounts ⟨m, n, hm, hn⟩
    rw [valuesEqual_eq_same hnone, ha.same_iff]
    constructor
    · exact .inl
    · rintro (heq | ⟨n, hm, hn⟩)
      · exact heq
      · exact absurd ⟨n, n, hm, hn⟩ hcounts

theorem equivalence_equal : Equivalence fun a b : {v // IsPlain v} => Holds .equal a.1 b.1 where
  refl a := (holds_equal_iff a.2 a.2).2 (.inl rfl)
  symm {a b} h := by
    rw [holds_equal_iff a.2 b.2] at h
    rw [holds_equal_iff b.2 a.2]
    rcases h with heq | ⟨n, ha, hb⟩
    · exact .inl heq.symm
    · exact .inr ⟨n, hb, ha⟩
  trans {a b c} hab hbc := by
    rw [holds_equal_iff a.2 b.2] at hab
    rw [holds_equal_iff b.2 c.2] at hbc
    rw [holds_equal_iff a.2 c.2]
    rcases hab with hab | ⟨n, ha, hb⟩
    · rwa [hab]
    · rcases hbc with hbc | ⟨k, hb', hc⟩
      · exact .inr ⟨n, ha, hbc ▸ hb⟩
      · exact .inr ⟨n, ha, hb.unique hb' ▸ hc⟩

/-! ## Values with an order -/

/-- The comparisons of one pair of values say the same about it. -/
structure Coherent (a b : Value) : Prop where
  succeed : ∀ op, op.isComparison = true → Holds op a b ∨ Fails op a b
  /-- Exactly one of the three. -/
  trichotomy :
    (Holds .less a b ∧ ¬ Holds .equal a b ∧ ¬ Holds .less b a) ∨
      (¬ Holds .less a b ∧ Holds .equal a b ∧ ¬ Holds .less b a) ∨
        (¬ Holds .less a b ∧ ¬ Holds .equal a b ∧ Holds .less b a)
  greater : Holds .greater a b ↔ Holds .less b a
  lessEqual : Holds .lessEqual a b ↔ ¬ Holds .less b a
  greaterEqual : Holds .greaterEqual a b ↔ ¬ Holds .less a b

theorem coherent_of_order {α : Type} [LinearOrder α] {x y : α} (h : ComparesAs a b x y)
    (h' : ComparesAs b a y x) : Coherent a b := by
  have hless : Holds .less a b ↔ x < y := (h .less rfl).holds_iff
  have hless' : Holds .less b a ↔ y < x := (h' .less rfl).holds_iff
  have hequal : Holds .equal a b ↔ x = y := (h .equal rfl).holds_iff
  refine ⟨fun op hop => (h op hop).holds_or_fails, ?_, ?_, ?_, ?_⟩
  · rw [hless, hless', hequal]
    rcases lt_trichotomy x y with hlt | rfl | hlt
    · exact .inl ⟨hlt, hlt.ne, hlt.not_gt⟩
    · exact .inr (.inl ⟨lt_irrefl x, rfl, lt_irrefl x⟩)
    · exact .inr (.inr ⟨hlt.not_gt, hlt.ne', hlt⟩)
  · rw [hless']
    exact (h .greater rfl).holds_iff
  · rw [hless', not_lt]
    exact (h .lessEqual rfl).holds_iff
  · rw [hless, not_lt]
    exact (h .greaterEqual rfl).holds_iff

theorem Comparable.coherent (h : Comparable a b) : Coherent a b := by
  cases h with
  | numbers ha hb => exact coherent_of_order (ha.comparesAs hb) (hb.comparesAs ha)
  | texts s t => exact coherent_of_order (comparesAs_text s t) (comparesAs_text t s)

theorem apply_of_not_comparable (ha : IsPlain a) (hb : IsPlain b) (h : ¬ Comparable a b)
    (hop : op ∈ [BinaryOp.less, .greater, .lessEqual, .greaterEqual]) :
    applyBinary op a b = .error (.unorderable op a.kind b.kind) := by
  have hnone := ofValue?_eq_none_or ha hb fun m n hm hn => h (.numbers hm hn)
  have horder := order_eq_error hnone fun s t => by
    rintro ⟨rfl, rfl⟩
    exact h (.texts s t)
  simp only [List.mem_cons, List.not_mem_nil, or_false] at hop
  rcases hop with rfl | rfl | rfl | rfl <;> rw [applyBinary, horder] <;> rfl

theorem comparable_of_holds_less (ha : IsPlain a) (hb : IsPlain b) (h : Holds .less a b) :
    Comparable a b := by
  by_contra hnot
  have happly := apply_of_not_comparable ha hb hnot (List.mem_cons_self (a := BinaryOp.less))
  cases h.symm.trans happly

theorem Counts.holds_less_iff {m n : Int} (ha : Counts a m) (hb : Counts b n) :
    Holds .less a b ↔ m < n :=
  (ha.comparesAs hb .less rfl).holds_iff

theorem holds_less_text_iff (s t : String) : Holds .less (.text s) (.text t) ↔ s < t :=
  (comparesAs_text s t .less rfl).holds_iff

theorem holds_less_trans {c : Value} (hab : Comparable a b) (hbc : Comparable b c)
    (h : Holds .less a b) (h' : Holds .less b c) : Holds .less a c := by
  cases hab with
  | numbers ha hb =>
      cases hbc with
      | numbers hb' hc =>
          have hlt := (ha.holds_less_iff hb).1 h
          have hlt' := (hb'.holds_less_iff hc).1 h'
          rw [hb.unique hb'] at hlt'
          exact (ha.holds_less_iff hc).2 (hlt.trans hlt')
      | texts => cases hb
  | texts s t =>
      cases hbc with
      | numbers hb => cases hb
      | texts _ u =>
          rw [holds_less_text_iff] at h h' ⊢
          exact h.trans h'

/-- Without floats, comparisons have one order behind them.  Equality never faults, and is an
equivalence in which booleans are integers.  Two numbers and two texts have an order, and all
comparisons agree about it: it is that of the integers, or that of the bytes of the texts, which is
that of their code points.  Any other two values are refused. -/
theorem comparisons_cohere :
    (∀ a b, IsPlain a → IsPlain b →
      ((Holds .equal a b ∧ Fails .notEqual a b) ∨ (Fails .equal a b ∧ Holds .notEqual a b)) ∧
      (Holds .equal a b ↔ a = b ∨ ∃ n, Counts a n ∧ Counts b n) ∧
      (Comparable a b → Coherent a b) ∧
      (¬ Comparable a b → ∀ op ∈ [BinaryOp.less, .greater, .lessEqual, .greaterEqual],
        applyBinary op a b = .error (.unorderable op a.kind b.kind) ∧
        (Fault.unorderable op a.kind b.kind).kind.title = "TypeError")) ∧
    (Equivalence fun a b : {v // IsPlain v} => Holds .equal a.1 b.1) ∧
    (∀ a b c, IsPlain a → IsPlain b → IsPlain c → Holds .less a b → Holds .less b c →
      Holds .less a c) ∧
    (∀ a b m n, Counts a m → Counts b n → (Holds .less a b ↔ m < n)) ∧
    ∀ s t : String,
      (Holds .less (.text s) (.text t) ↔ s.toUTF8.data.toList < t.toUTF8.data.toList) ∧
      (Holds .less (.text s) (.text t) ↔ s.toList < t.toList) := by
  refine ⟨fun a b ha hb => ⟨?_, holds_equal_iff ha hb, Comparable.coherent, ?_⟩,
    equivalence_equal, ?_, fun a b m n => Counts.holds_less_iff, fun s t => ⟨?_, ?_⟩⟩
  · simp only [Holds, Fails, applyBinary]
    cases valuesEqual a b <;> simp
  · intro hnot op hop
    exact ⟨apply_of_not_comparable ha hb hnot hop, rfl⟩
  · intro a b c ha hb hc h h'
    have hab := comparable_of_holds_less ha hb h
    have hbc := comparable_of_holds_less hb hc h'
    exact holds_less_trans hab hbc h h'
  · rw [holds_less_text_iff, Utf8.toUTF8_lt_iff]
  · rw [holds_less_text_iff, String.lt_iff_toList_lt]

/-- `True` stands for one, next to a text it has no order, and a letter of two bytes comes after all
letters of one. -/
theorem comparisons_cohere_mixed :
    IsPlain (.bool true) ∧ IsPlain (.text "é") ∧ Counts (.bool true) 1 ∧ Counts (.int 1) 1 ∧
      Holds .equal (.bool true) (.int 1) ∧ ¬ Comparable (.bool true) (.text "é") ∧
      applyBinary .less (.bool true) (.text "é") = .error (.unorderable .less .bool .text) ∧
      Comparable (.text "é") (.text "z") ∧ Holds .greater (.text "é") (.text "z") ∧
      Holds .less (.bool false) (.int 2) := by
  obtain ⟨hpairs, -, htrans, hnumbers, htexts⟩ := comparisons_cohere
  have hbool : IsPlain (.bool true) := nofun
  have hint : IsPlain (.int 1) := nofun
  have hletter : IsPlain (.text "é") := nofun
  have hother : IsPlain (.text "z") := nofun
  have hequal := (hpairs _ _ hbool hint).2.1.2 (.inr ⟨1, .bool true, .int 1⟩)
  have hnot : ¬ Comparable (.bool true) (.text "é") := by
    intro h
    cases h with
    | numbers _ hb => cases hb
  have hrefused := ((hpairs _ _ hbool hletter).2.2.2 hnot .less (by simp)).1
  have hcomparable : Comparable (.text "é") (.text "z") := .texts "é" "z"
  have hless : Holds .less (.text "z") (.text "é") := (htexts "z" "é").2.2 (by decide)
  have hgreater := ((hpairs _ _ hletter hother).2.2.1 hcomparable).greater.2 hless
  have hfirst : Holds .less (.bool false) (.int 1) :=
    (hnumbers _ _ 0 1 (.bool false) (.int 1)).2 (by decide)
  have hsecond : Holds .less (.int 1) (.int 2) :=
    (hnumbers _ _ 1 2 (.int 1) (.int 2)).2 (by decide)
  have hfalse : IsPlain (.bool false) := nofun
  have htwo : IsPlain (.int 2) := nofun
  have hthird := htrans _ _ _ hfalse hint htwo hfirst hsecond
  exact ⟨hbool, hletter, .bool true, .int 1, hequal, hnot, hrefused, hcomparable, hgreater, hthird⟩

end Script
end CodeSessions
