import CodeSessions.Proofs.Script.Derivation

/-!
# Reading — the readers find exactly the derivations

The readers of `Script.Grammar` against the grammar of `Derivation`:

- soundness: what a reader gives is derivable from the tokens it took off the front, within the room
  and at no more than the cost it charged,
- completeness: on tokens with a derivation, and a rest that does not go on with it, a reader gives
  the tree of the derivation and charges its count, unless the derivation exceeds a limit, and then
  it reports a limit that is exceeded.

Both go through the levels from the inside out, and by induction on the room.
-/

namespace CodeSessions
namespace Script

/-! ## Readers by level -/

namespace Level

/-- The reader of a level, given the readers that open a level of nesting. -/
def reader (inner : Levels) : Level → Reader
  | disjunction => Script.disjunction inner
  | conjunction => leftAssoc (· == .and) (Script.negation inner)
  | negation => Script.negation inner
  | comparison =>
      Script.comparison (leftAssoc isTermOp (leftAssoc isFactorOp (Script.signed inner)))
  | sum => leftAssoc isTermOp (leftAssoc isFactorOp (Script.signed inner))
  | product => leftAssoc isFactorOp (Script.signed inner)
  | signed => Script.signed inner
  | primary => Script.primary inner

/-- Whether an operator stands between operands of a level. -/
def takes (l : Level) (op : BinaryOp) : Bool :=
  op.level == l

theorem join_comparison : comparison.join = Expr.compare := by
  funext first steps
  match steps with
  | [] => rfl
  | [_] => rfl
  | _ :: _ :: _ => rfl

theorem join_eq_foldLeft {l : Level} (hl : l ≠ comparison) : l.join = Expr.foldLeft := by
  funext first steps
  cases l with
  | comparison => exact absurd rfl hl
  | _ => rfl

theorem join_cases (l : Level) (first : Expr) (steps : List (BinaryOp × Expr)) :
    (steps ≠ [] ∧ l.join first steps = .chain first steps) ∨
      l.join first steps = first.foldLeft steps := by
  unfold join
  split
  · exact .inl ⟨List.cons_ne_nil _ _, rfl⟩
  · exact .inr rfl

/-- Every level with binary operators is read by the same loop. -/
theorem reader_eq_joined {l k : Level} (hk : l.operand? = some k) (inner : Levels) :
    l.reader inner = joined l.takes l.join (k.reader inner) := by
  have htakes : ∀ select : BinaryOp → Bool, (∀ op, select op = l.takes op) → select = l.takes :=
    fun select h => funext h
  cases l with
  | disjunction =>
      cases hk
      -- each reader names its operators in its own way, and takes just those of its level
      rw [← htakes (· == .or) (by intro op; cases op <;> rfl), join_eq_foldLeft (by decide)]
      rfl
  | conjunction =>
      cases hk
      rw [← htakes (· == .and) (by intro op; cases op <;> rfl), join_eq_foldLeft (by decide)]
      rfl
  | comparison =>
      cases hk
      rw [← htakes BinaryOp.isComparison (by intro op; cases op <;> rfl), join_comparison]
      rfl
  | sum =>
      cases hk
      rw [← htakes isTermOp (by intro op; cases op <;> rfl), join_eq_foldLeft (by decide)]
      rfl
  | product =>
      cases hk
      rw [← htakes isFactorOp (by intro op; cases op <;> rfl), join_eq_foldLeft (by decide)]
      rfl
  | negation | signed | primary => cases hk

end Level

/-! ## Binds -/

theorem ok_of_bind_eq_ok {ε α β : Type} {r : Except ε α} {f : α → Except ε β} {b : β}
    (h : (r >>= f) = .ok b) : ∃ a, r = .ok a ∧ f a = .ok b := by
  cases r with
  | error e => cases h
  | ok a => exact ⟨a, rfl, h⟩

theorem ok_of_map_eq_ok {ε α β : Type} {r : Except ε α} {f : α → β} {b : β}
    (h : r.map f = .ok b) : ∃ a, r = .ok a ∧ b = f a := by
  cases r with
  | error e => cases h
  | ok a =>
      cases h
      exact ⟨a, rfl, rfl⟩

theorem error_of_bind_eq_error {ε α β : Type} {r : Except ε α} {f : α → Except ε β} {e : ε}
    (h : (r >>= f) = .error e) : r = .error e ∨ ∃ a, r = .ok a ∧ f a = .error e := by
  cases r with
  | error e' =>
      cases h
      exact .inl rfl
  | ok a => exact .inr ⟨a, rfl, h⟩

theorem bind_eq_error_iff {ε α β : Type} {r : Except ε α} {g : α → Except ε β}
    (hg : ∀ a e, g a ≠ .error e) {e : ε} : (r >>= g) = .error e ↔ r = .error e := by
  constructor
  · intro h
    rcases error_of_bind_eq_error h with h | ⟨a, _, h⟩
    · exact h
    · exact absurd h (hg a e)
  · rintro rfl
    rfl

/-! ## Soundness -/

/-- What a reader of level `l` may give for `tokens`: an expression that is derivable from the
tokens up to the rest, with a depth below `room` and a count that has been paid for. -/
def Explains (l : Level) (room : Nat) (tokens : List Token) (budget : Nat) :
    Option (Expr × List Token) × Nat → Prop
  | (none, left) => left ≤ budget
  | (some (e, rest), left) =>
      ∃ ts depth count, tokens = ts ++ rest ∧ Derives l ts e depth count ∧ depth < room ∧
        left + count ≤ budget

def Sound (l : Level) (room : Nat) (reader : Reader) : Prop :=
  ∀ (tokens : List Token) (budget : Nat) (result : Option (Expr × List Token) × Nat),
    reader tokens budget = .ok result → Explains l room tokens budget result

/-- The readers of the next level of nesting are sound, for derivations of a depth below `room`. -/
structure Levels.Sound (room : Nat) (inner : Levels) : Prop where
  expression : Script.Sound .disjunction room inner.expression
  negation : Script.Sound .negation room inner.negation
  signed : Script.Sound .signed room inner.signed

theorem charge_eq_ok {budget left : Nat} (h : charge budget = .ok left) : left + 1 = budget := by
  cases budget with
  | zero => cases h
  | succ n => cases h; rfl

theorem stepsFrom_sound {l k : Level} {room : Nat} {operand : Reader} (hk : l.operand? = some k)
    (hoperand : Sound k room operand) (hroom : 0 < room) {turns : Nat} :
    ∀ {done steps : List (BinaryOp × Expr)} {tokens rest : List Token} {budget left : Nat},
      stepsFrom l.takes operand turns done tokens budget = .ok ((steps, rest), left) →
      ∃ ts new depth count, tokens = ts ++ rest ∧ steps = done.reverse ++ new ∧
        Steps l ts new depth count ∧ depth < room ∧ left + count ≤ budget := by
  -- where the loop stops it takes nothing more, whatever it has paid for an operand it did not get
  have hstop : ∀ {done steps : List (BinaryOp × Expr)} {tokens rest : List Token}
      {budget budget' left : Nat}, budget' ≤ budget →
      (Except.ok ((done.reverse, tokens), budget') : Except Limit _) = .ok ((steps, rest), left) →
      ∃ ts new depth count, tokens = ts ++ rest ∧ steps = done.reverse ++ new ∧
        Steps l ts new depth count ∧ depth < room ∧ left + count ≤ budget := by
    intro done steps tokens rest budget budget' left hle h
    cases h
    exact ⟨[], [], 0, 0, rfl, by simp, .nil l, hroom, hle⟩
  induction turns with
  | zero =>
      intro done steps tokens rest budget left h
      -- out of turns, and so out of budget: nothing more is taken
      exact hstop (Nat.le_refl budget) h
  | succ turns ih =>
      intro done steps tokens rest budget left h
      cases tokens with
      | nil => exact hstop (Nat.le_refl budget) h
      | cons t after =>
          cases t with
          | op op =>
              simp only [stepsFrom] at h
              split at h
              · rename_i hop
                obtain ⟨⟨found, paid⟩, hread, h⟩ := ok_of_bind_eq_ok h
                have hexplains := hoperand _ _ _ hread
                cases found with
                | none => exact hstop hexplains h
                | some found =>
                    obtain ⟨right, after'⟩ := found
                    obtain ⟨ts, depth, count, rfl, hright, hdepth, hcount⟩ := hexplains
                    obtain ⟨paid', hcharge, h⟩ := ok_of_bind_eq_ok h
                    have hpaid := charge_eq_ok hcharge
                    -- the step is put in front of those that the rest of the loop takes
                    obtain ⟨us, new, depth', count', rfl, rfl, hsteps, hdepth', hcount'⟩ := ih h
                    refine ⟨.op op :: ts ++ us, (op, right) :: new, max depth depth',
                      count + count' + 1, by simp, by simp, ?_, by omega, by omega⟩
                    exact .cons (eq_of_beq hop) hk hright hsteps
              · exact hstop (Nat.le_refl budget) h
          | _ => exact hstop (Nat.le_refl budget) h

theorem joined_sound {l k : Level} {room : Nat} {operand : Reader} (hk : l.operand? = some k)
    (hoperand : Sound k room operand) : Sound l room (joined l.takes l.join operand) := by
  intro tokens budget result h
  -- the first operand, and then the steps behind it
  obtain ⟨⟨found, paid⟩, hread, hfound⟩ := ok_of_bind_eq_ok h
  have hexplains := hoperand _ _ _ hread
  cases found with
  | none =>
      cases hfound
      exact hexplains
  | some found =>
      obtain ⟨first, rest⟩ := found
      obtain ⟨ts, depth, count, rfl, hfirst, hdepth, hcount⟩ := hexplains
      obtain ⟨⟨⟨steps, rest'⟩, left⟩, hsteps, hdone⟩ := ok_of_bind_eq_ok hfound
      obtain ⟨us, new, depth', count', rfl, rfl, hnew, hdepth', hcount'⟩ :=
        stepsFrom_sound hk hoperand (by omega) hsteps
      cases hdone
      refine ⟨ts ++ us, max depth depth', count + count', by simp, ?_, by omega, by omega⟩
      simpa using Derives.joined hk hfirst hnew

/-- The reader of a level with binary operators is sound if that of its operands is. -/
theorem reader_sound {l k : Level} {room : Nat} {inner : Levels} (hk : l.operand? = some k)
    (hoperand : Sound k room (k.reader inner)) : Sound l room (l.reader inner) := by
  simpa only [Level.reader_eq_joined hk] using joined_sound hk hoperand

theorem unary_sound {l : Level} {room : Nat} {operand : Reader} {op : UnaryOp} {t : Token}
    (hderives : ∀ {ts : List Token} {e : Expr} {depth count : Nat},
      Derives l ts e depth count → Derives l (t :: ts) (.unary op e) (depth + 1) (count + 1))
    (hoperand : Sound l room operand) {tokens : List Token} {budget : Nat}
    {result : Option (Expr × List Token) × Nat} (h : unary op operand tokens budget = .ok result) :
    Explains l (room + 1) (t :: tokens) budget result := by
  obtain ⟨⟨found, paid⟩, hread, hfound⟩ := ok_of_bind_eq_ok h
  have hexplains := hoperand _ _ _ hread
  cases found with
  | none =>
      cases hfound
      exact hexplains
  | some found =>
      obtain ⟨e, rest⟩ := found
      obtain ⟨ts, depth, count, rfl, he, hdepth, hcount⟩ := hexplains
      obtain ⟨left, hcharge, hdone⟩ := ok_of_bind_eq_ok hfound
      have hleft := charge_eq_ok hcharge
      cases hdone
      exact ⟨t :: ts, depth + 1, count + 1, rfl, hderives he, by omega, by omega⟩

theorem primary_sound {room : Nat} {inner : Levels} (hinner : inner.Sound room) :
    Sound .primary (room + 1) (primary inner) := by
  intro tokens budget result h
  cases tokens with
  | nil =>
      cases h
      exact Nat.le_refl budget
  | cons t rest =>
      cases t with
      | literal value =>
          cases h
          exact ⟨[.literal value], 0, 0, rfl, .literal value, Nat.succ_pos room, Nat.le_refl budget⟩
      | name name =>
          cases h
          exact ⟨[.name name], 0, 0, rfl, .name name, Nat.succ_pos room, Nat.le_refl budget⟩
      | opening =>
          obtain ⟨⟨found, paid⟩, hread, hfound⟩ := ok_of_bind_eq_ok h
          have hexplains := hinner.expression _ _ _ hread
          split at hfound
          · rename_i e after paid' heq
            cases heq
            cases hfound
            obtain ⟨ts, depth, count, rfl, he, hdepth, hcount⟩ := hexplains
            exact ⟨.opening :: ts ++ [.closing], depth + 1, count, by simp, .parens he,
              by omega, hcount⟩
          · rename_i paid' _ heq
            cases heq
            cases hfound
            -- An open parenthesis that is not closed gives nothing, but what it cost is spent.
            cases found with
            | none => exact hexplains
            | some found =>
                obtain ⟨ts, depth, count, _, _, _, hcount⟩ := hexplains
                exact Nat.le_trans (Nat.le_add_right _ count) hcount
      | _ =>
          cases h
          exact Nat.le_refl budget

theorem Explains.lift {l k : Level} {room : Nat} {tokens : List Token} {budget : Nat}
    {result : Option (Expr × List Token) × Nat}
    (hderives : ∀ {ts : List Token} {e : Expr} {depth count : Nat},
      Derives k ts e depth count → Derives l ts e depth count)
    (h : Explains k room tokens budget result) : Explains l room tokens budget result := by
  obtain ⟨found, left⟩ := result
  cases found with
  | none => exact h
  | some found =>
      obtain ⟨ts, depth, count, htokens, he, hdepth, hcount⟩ := h
      exact ⟨ts, depth, count, htokens, hderives he, hdepth, hcount⟩

/-- The signs are `-` and `+`. -/
theorem sign_cases {op : BinaryOp} {sign : UnaryOp}
    (h : UnaryOp.ofSymbol? op.symbol = some sign) :
    (op = .subtract ∧ sign = .negate) ∨ (op = .add ∧ sign = .plus) := by
  have hsymbol : sign.symbol = op.symbol := UnaryOp.ofSymbol?_eq_some_iff.1 h
  cases op <;> cases sign <;> revert hsymbol <;> decide

theorem signed_sound {room : Nat} {inner : Levels} (hinner : inner.Sound room) :
    Sound .signed (room + 1) (signed inner) := by
  intro tokens budget result h
  simp only [signed] at h
  split at h
  · split at h
    · rename_i hsign
      obtain ⟨rfl, rfl⟩ | ⟨rfl, rfl⟩ := sign_cases hsign
      · exact unary_sound .negate hinner.signed h
      · exact unary_sound .plus hinner.signed h
    · cases h
      exact Nat.le_refl _
  · exact (primary_sound hinner _ _ _ h).lift .unsigned

theorem comparison_sound {room : Nat} {inner : Levels} (hinner : inner.Sound room) :
    Sound .comparison (room + 1) (Level.comparison.reader inner) := by
  have hproduct : Sound .product (room + 1) (Level.product.reader inner) :=
    reader_sound (k := .signed) rfl (signed_sound hinner)
  have hsum : Sound .sum (room + 1) (Level.sum.reader inner) :=
    reader_sound (k := .product) rfl hproduct
  exact reader_sound (k := .sum) rfl hsum

theorem negation_sound {room : Nat} {inner : Levels} (hinner : inner.Sound room) :
    Sound .negation (room + 1) (negation inner) := by
  intro tokens budget result h
  simp only [negation] at h
  split at h
  · exact unary_sound .not hinner.negation h
  · exact Explains.lift .affirmed (comparison_sound hinner _ _ _ h)

theorem disjunction_sound {room : Nat} {inner : Levels} (hinner : inner.Sound room) :
    Sound .disjunction (room + 1) (disjunction inner) := by
  have hconjunction : Sound .conjunction (room + 1) (Level.conjunction.reader inner) :=
    reader_sound (k := .negation) rfl (negation_sound hinner)
  exact reader_sound (l := .disjunction) (k := .conjunction) rfl hconjunction

theorem levels_sound (room : Nat) : (levels room).Sound room := by
  induction room with
  | zero =>
      -- without room there is nothing to be sound about
      refine ⟨?_, ?_, ?_⟩ <;> (intro tokens budget result h; cases h)
  | succ room ih =>
      exact ⟨disjunction_sound ih, negation_sound ih, signed_sound ih⟩

/-! ## Completeness -/

/-- What comes of reading a phrase with this depth and count: its value, or a limit it exceeds. -/
inductive Outcome {ε α : Type} (complaint : Limit → ε) (room depth budget count : Nat) (value : α) :
    Except ε (α × Nat) → Prop
  | fits (hdepth : depth < room) (hcount : count ≤ budget) :
      Outcome complaint room depth budget count value (.ok (value, budget - count))
  | tooDeep (hdepth : room ≤ depth) :
      Outcome complaint room depth budget count value (.error (complaint .nesting))
  | tooMany (hcount : budget < count) :
      Outcome complaint room depth budget count value (.error (complaint .operators))

namespace Outcome

variable {ε α β : Type} {complaint : Limit → ε} {room depth depth' budget count count' : Nat}
  {a : α} {b : β}

theorem bind {r : Except ε (α × Nat)} {f : α × Nat → Except ε (β × Nat)}
    (h : Outcome complaint room depth budget count a r)
    (hf : Outcome complaint room depth' (budget - count) count' b (f (a, budget - count))) :
    Outcome complaint room (max depth depth') budget (count + count') b (r >>= f) := by
  cases h with
  | fits hdepth hcount =>
      change Outcome _ _ _ _ _ _ (f (a, budget - count))
      generalize f (a, budget - count) = result at hf
      -- the first part fits, so all depends on the second
      cases hf with
      | fits hdepth' hcount' =>
          have hboth : count + count' ≤ budget := by omega
          simpa only [Nat.sub_sub] using
            Outcome.fits (Nat.max_lt.mpr ⟨hdepth, hdepth'⟩) hboth
      | tooDeep hdepth' => exact .tooDeep (by omega)
      | tooMany hcount' => exact .tooMany (by omega)
  | tooDeep hdepth => exact .tooDeep (by omega)
  | tooMany hcount => exact .tooMany (by omega)

theorem map {r : Except ε (α × Nat)} {f : α × Nat → Except ε (β × Nat)}
    (h : Outcome complaint room depth budget count a r) (hf : ∀ left, f (a, left) = .ok (b, left)) :
    Outcome complaint room depth budget count b (r >>= f) := by
  cases h with
  | fits hdepth hcount =>
      change Outcome _ _ _ _ _ _ (f (a, budget - count))
      simpa only [hf] using Outcome.fits hdepth hcount
  | tooDeep hdepth => exact .tooDeep hdepth
  | tooMany hcount => exact .tooMany hcount

/-- Paying for an operator. -/
theorem charge {f : Nat → Except Limit (α × Nat)}
    (hf : 0 < budget → Outcome id room depth (budget - 1) count a (f (budget - 1))) :
    Outcome id room depth budget (count + 1) a (Script.charge budget >>= f) := by
  cases budget with
  | zero => exact .tooMany (Nat.succ_pos count)
  | succ budget =>
      have hf := hf (Nat.succ_pos budget)
      change Outcome _ _ _ _ _ _ (f budget)
      -- one operator has been paid for, so one less is left for the rest
      simp only [Nat.add_sub_cancel] at hf
      generalize f budget = result at hf
      cases hf with
      | fits hdepth hcount =>
          have hpaid : count + 1 ≤ budget + 1 := Nat.succ_le_succ hcount
          simpa only [Nat.add_sub_add_right] using Outcome.fits hdepth hpaid
      | tooDeep hdepth => exact .tooDeep hdepth
      | tooMany hcount => exact .tooMany (by omega)

theorem deepen {r : Except ε (α × Nat)} (h : Outcome complaint room depth budget count a r) :
    Outcome complaint (room + 1) (depth + 1) budget count a r := by
  cases h with
  | fits hdepth hcount => exact .fits (by omega) hcount
  | tooDeep hdepth => exact .tooDeep (by omega)
  | tooMany hcount => exact .tooMany hcount

end Outcome

/-- The rest does not go on with an operator that an expression of level `l` could take. -/
def Stops (l : Level) (rest : List Token) : Prop :=
  ∀ op us, rest = .op op :: us → op.level.rank < l.rank

theorem Stops.mono {l k : Level} {rest : List Token} (hle : l.rank ≤ k.rank) (h : Stops l rest) :
    Stops k rest :=
  fun op us hrest => Nat.lt_of_lt_of_le (h op us hrest) hle

theorem Steps.stops {l k : Level} {us rest : List Token} {steps : List (BinaryOp × Expr)}
    {depth count : Nat} (hk : l.operand? = some k) (h : Steps l us steps depth count)
    (hrest : Stops l rest) : Stops k (us ++ rest) := by
  have hlt := Level.rank_lt_of_operand? hk
  cases h with
  -- behind the last step the rest stops the level, and all the more its operands
  | nil => exact hrest.mono (Nat.le_of_lt hlt)
  | cons hop _ _ _ =>
      intro op us h
      cases h
      simpa only [hop] using hlt

/-- What reading a derivation comes to, whatever the room, the budget and the rest. -/
def Reads (l : Level) (ts : List Token) (e : Expr) (depth count : Nat) : Prop :=
  ∀ (room budget : Nat) (rest : List Token), Stops l rest →
    Outcome id (room + 1) depth budget count (some (e, rest))
      (l.reader (levels room) (ts ++ rest) budget)

namespace Reads

variable {l k : Level} {ts us : List Token} {e : Expr} {depth count : Nat}

/-- The reader that opens a level of nesting, which has no room left at the innermost level. -/
theorem opened (reader : Levels → Reader) (h : Reads l ts e depth count)
    (hzero : ∀ tokens budget, reader (levels 0) tokens budget = .error .nesting)
    (hsucc : ∀ room, reader (levels (room + 1)) = l.reader (levels room)) (room budget : Nat)
    {rest : List Token} (hrest : Stops l rest) :
    Outcome id room depth budget count (some (e, rest))
      (reader (levels room) (ts ++ rest) budget) := by
  cases room with
  | zero =>
      simp only [hzero]
      exact .tooDeep (Nat.zero_le depth)
  | succ room =>
      simpa only [hsucc] using h room budget rest hrest

theorem unary {op : UnaryOp} (reader : Levels → Reader) (h : Reads l ts e depth count)
    (hzero : ∀ tokens budget, reader (levels 0) tokens budget = .error .nesting)
    (hsucc : ∀ room, reader (levels (room + 1)) = l.reader (levels room)) (room budget : Nat)
    {rest : List Token} (hrest : Stops l rest) :
    Outcome id (room + 1) (depth + 1) budget (count + 1) (some (.unary op e, rest))
      (Script.unary op (reader (levels room)) (ts ++ rest) budget) := by
  have hoperand := (h.opened reader hzero hsucc room budget hrest).deepen
  -- the sign itself has no depth, only the price of an operator
  refine Nat.max_zero (depth + 1) ▸ hoperand.bind (Outcome.charge fun _ => ?_)
  exact .fits (Nat.succ_pos room) (Nat.zero_le _)

theorem parens (h : Reads .disjunction ts e depth count) :
    Reads .primary (.opening :: ts ++ [.closing]) e (depth + 1) count := by
  intro room budget rest _
  have hstops : Stops .disjunction (.closing :: rest) := by
    intro op us h
    cases h
  -- the closing parenthesis is no operator, so it stops the expression inside
  have hinner := (h.opened Levels.expression (fun _ _ => rfl) (fun _ => rfl) room budget
    hstops).deepen
  have htokens : .opening :: ts ++ [.closing] ++ rest = .opening :: (ts ++ .closing :: rest) := by
    simp
  simp only [htokens]
  exact hinner.map fun _ => rfl

end Reads

/-- The loop of a level leaves tokens alone that do not go on with an operator of the level. -/
theorem stepsFrom_of_not_takes {l : Level} {rest : List Token}
    (hrest : ∀ op us, rest = .op op :: us → l.takes op = false) (operand : Reader) (turns : Nat)
    (done : List (BinaryOp × Expr)) (budget : Nat) :
    stepsFrom l.takes operand turns done rest budget = .ok ((done.reverse, rest), budget) := by
  cases turns with
  | zero => rfl
  | succ turns =>
      cases rest with
      | nil => rfl
      | cons t rest =>
          cases t with
          | op op => simp [stepsFrom, hrest op rest rfl]
          | _ => rfl

/-- One loop reads all steps of a level, and stops behind them. -/
def StepsRead (l : Level) (us : List Token) (steps : List (BinaryOp × Expr)) (depth count : Nat) :
    Prop :=
  ∀ (k : Level), l.operand? = some k → ∀ (room budget turns : Nat) (done : List (BinaryOp × Expr))
    (rest : List Token), Stops l rest → budget < turns →
    Outcome id (room + 1) depth budget count (done.reverse ++ steps, rest)
      (stepsFrom l.takes (k.reader (levels room)) turns done (us ++ rest) budget)

theorem StepsRead.nil (l : Level) : StepsRead l [] [] 0 0 := by
  intro k _ room budget turns done rest hrest hturns
  have hnot : ∀ op us, rest = .op op :: us → l.takes op = false := fun op us h =>
    beq_false_of_ne fun heq => Nat.lt_irrefl l.rank (heq ▸ hrest op us h)
  simp only [List.nil_append, List.append_nil, stepsFrom_of_not_takes hnot]
  exact .fits (Nat.succ_pos room) (Nat.zero_le budget)

theorem StepsRead.cons {l k : Level} {op : BinaryOp} {ts us : List Token} {right : Expr}
    {steps : List (BinaryOp × Expr)} {depth depth' count count' : Nat} (hop : op.level = l)
    (hk : l.operand? = some k) (hright : Reads k ts right depth count)
    (hsteps : Steps l us steps depth' count') (h : StepsRead l us steps depth' count') :
    StepsRead l (.op op :: ts ++ us) ((op, right) :: steps) (max depth depth')
      (count + count' + 1) := by
  intro k' hk' room budget turns done rest hrest hturns
  cases hk.symm.trans hk'
  cases turns with
  | zero => exact absurd hturns (Nat.not_lt_zero budget)
  | succ turns =>
      have htakes : l.takes op = true := beq_iff_eq.2 hop
      -- the operand stops where the next operator of the level stands, or where the rest begins
      have hoperand := hright room budget (us ++ rest) (hsteps.stops hk hrest)
      have hdone :
          done.reverse ++ (op, right) :: steps = ((op, right) :: done).reverse ++ steps := by
        simp
      have htokens : .op op :: ts ++ us ++ rest = .op op :: (ts ++ (us ++ rest)) := by simp
      simp only [hdone, htokens, stepsFrom, htakes, if_true, Nat.add_assoc]
      refine hoperand.bind (Outcome.charge fun hpos => ?_)
      -- every turn pays for an operator, so the turns last longer than the budget
      have hturns' : budget - count - 1 < turns := by omega
      exact h k hk room (budget - count - 1) turns _ rest hrest hturns'

theorem signed_of_opens {inner : Levels} {t : Token} {us : List Token} {budget : Nat}
    (ht : t.opens .primary = true) :
    signed inner (t :: us) budget = primary inner (t :: us) budget := by
  cases t with
  | op op => cases op <;> cases ht
  | _ => rfl

theorem negation_of_opens {inner : Levels} {t : Token} {us : List Token} {budget : Nat}
    (ht : t.opens .comparison = true) :
    negation inner (t :: us) budget = Level.comparison.reader inner (t :: us) budget := by
  simp only [negation]
  split
  · rename_i heq
    cases heq
    cases ht
  · rfl

mutual

theorem Derives.reads {l : Level} {ts : List Token} {e : Expr} {depth count : Nat} :
    Derives l ts e depth count → Reads l ts e depth count
  | .literal value => fun room budget rest _ => .fits (Nat.succ_pos room) (Nat.zero_le budget)
  | .name x => fun room budget rest _ => .fits (Nat.succ_pos room) (Nat.zero_le budget)
  | .parens h => h.reads.parens
  | .unsigned h => by
      intro room budget rest hrest
      -- no primary starts with a sign, so the reader goes on to the primaries
      have hprimary := h.reads room budget rest (hrest.mono (by decide))
      rcases h.exists_cons with ⟨t, us, rfl, ht⟩
      change Outcome _ _ _ _ _ _ (signed (levels room) (t :: (us ++ rest)) budget)
      simp only [signed_of_opens ht]
      exact hprimary
  | .negate h => fun room budget rest hrest =>
      h.reads.unary Levels.signed (fun _ _ => rfl) (fun _ => rfl) room budget hrest
  | .plus h => fun room budget rest hrest =>
      h.reads.unary Levels.signed (fun _ _ => rfl) (fun _ => rfl) room budget hrest
  | .affirmed h => by
      intro room budget rest hrest
      -- no comparison starts with `not`, so the reader goes on to the comparisons
      have hcomparison := h.reads room budget rest (hrest.mono (by decide))
      rcases h.exists_cons with ⟨t, us, rfl, ht⟩
      change Outcome _ _ _ _ _ _ (negation (levels room) (t :: (us ++ rest)) budget)
      simp only [negation_of_opens ht]
      exact hcomparison
  | .not h => fun room budget rest hrest =>
      h.reads.unary Levels.negation (fun _ _ => rfl) (fun _ => rfl) room budget hrest
  | .joined hk h hsteps => by
      intro room budget rest hrest
      simp only [Level.reader_eq_joined hk, List.append_assoc]
      refine (h.reads room budget _ (hsteps.stops hk hrest)).bind ?_
      exact (hsteps.read _ hk room _ _ [] rest hrest (Nat.lt_succ_self _)).map fun _ => rfl

theorem Steps.read {l : Level} {us : List Token} {steps : List (BinaryOp × Expr)}
    {depth count : Nat} : Steps l us steps depth count → StepsRead l us steps depth count
  | .nil l => .nil l
  | .cons hop hk h hsteps => .cons hop hk h.reads hsteps hsteps.read

end

end Script
end CodeSessions
