import CodeSessions.Script.Syntax
import CodeSessions.Text.Blank
import CodeSessions.Text.Letter

/-!
# Tokens — the words of a script line

`Token.ofLine` cuts a line into tokens.  Each token is the longest one that starts where it starts,
spaces and tabs between tokens mean nothing, and a `#` ends the line.  At the first character that
starts no token the list ends with a `stray`, which no statement contains.

- Numbers are ASCII digits, with a fraction if a point and a digit follow; an integer beyond the
  64-bit range is no token.
- Texts stand between two `'` or two `"`, without escapes.
- Names are made of letters, numerals and underscores; seven of them are reserved.
-/

namespace CodeSessions
namespace Script

inductive Token
  | literal (value : Value)
  | name (name : String)
  | op (op : BinaryOp)
  | not
  | print
  | assign
  | opening
  | closing
  | comma
  | semicolon
  | stray
  deriving DecidableEq

namespace Token

/-! ## Words -/

/-- The token of a maximal run of name characters. -/
def ofWord (word : String) : Token :=
  match word with
  | "print" => print
  | "and" => op .and
  | "or" => op .or
  | "not" => not
  | "True" => literal (.bool true)
  | "False" => literal (.bool false)
  | "None" => literal .none
  | _ => name word

/-! ## Numbers -/

/-- The number that a run of ASCII digits denotes. -/
def digitsValue (digits : List Char) : Nat :=
  digits.foldl (fun n d => 10 * n + (d.toNat - '0'.toNat)) 0

def ofInteger? (digits : List Char) : Option Token :=
  let n := digitsValue digits
  -- a sign is an operator, so that the least integer of all has no literal
  if n ≤ Int64.maxValue.toInt then some (literal (.int (Int64.ofNat n))) else none

/-- The double nearest to a decimal fraction. -/
def ofFraction (whole fraction : List Char) : Token :=
  literal (.float (Float.ofScientific (digitsValue (whole ++ fraction)) true fraction.length))

/-- The number at the start of `s`, which starts with a digit. -/
def readNumber (s : List Char) : Option (Token × List Char) :=
  let whole := s.takeWhile Char.isDigit
  let rest := s.dropWhile Char.isDigit
  match rest with
  | '.' :: d :: tail =>
      if d.isDigit then
        some (ofFraction whole ((d :: tail).takeWhile Char.isDigit),
          (d :: tail).dropWhile Char.isDigit)
      -- a point without a digit behind it is left standing
      else (ofInteger? whole).map fun t => (t, rest)
  | _ => (ofInteger? whole).map fun t => (t, rest)

/-! ## Texts and symbols -/

/-- The text that goes on in `s` and ends at the next `quote`. -/
def readText (quote : Char) (s : List Char) : Option (Token × List Char) :=
  match s.dropWhile (· != quote) with
  | [] => none
  | _ :: rest => some (literal (.text (String.ofList (s.takeWhile (· != quote)))), rest)

/-- The token of a symbol: an operator or a punctuation mark. -/
def ofSymbol? (symbol : String) : Option Token :=
  match BinaryOp.ofSymbol? symbol with
  | some operator => some (op operator)
  | none =>
      match symbol with
      | "=" => some assign
      | "(" => some opening
      | ")" => some closing
      | "," => some comma
      | ";" => some semicolon
      | _ => none

/-- The symbol of `c` and an equals sign, or else `c` alone. -/
def readSymbol (c : Char) (s : List Char) : Option (Token × List Char) :=
  let alone := (ofSymbol? (String.singleton c)).map fun t => (t, s)
  match s with
  | '=' :: rest => ((ofSymbol? (String.ofList [c, '='])).map fun t => (t, rest)).or alone
  | _ => alone

/-! ## Lines -/

/-- The token that `c` starts and what follows it, given the characters `s` after `c`. -/
def read (c : Char) (s : List Char) : Option (Token × List Char) :=
  if c.isDigit then readNumber (c :: s)
  else if c == '"' || c == '\'' then readText c s
  else if Text.isNameStart c then
    some (ofWord (String.ofList (c :: s.takeWhile Text.isNamePart)), s.dropWhile Text.isNamePart)
  else readSymbol c s

theorem length_dropWhile_le {α : Type} (p : α → Bool) (l : List α) :
    (l.dropWhile p).length ≤ l.length :=
  (List.dropWhile_sublist p).length_le

theorem length_of_readNumber {c : Char} {s rest : List Char} {t : Token} (hc : c.isDigit = true)
    (h : readNumber (c :: s) = some (t, rest)) : rest.length ≤ s.length := by
  have hdrop := length_dropWhile_le Char.isDigit s
  have hcons : (c :: s).dropWhile Char.isDigit = s.dropWhile Char.isDigit := by simp [hc]
  unfold readNumber at h
  rw [hcons] at h
  dsimp only at h
  split at h
  · rename_i d tail heq
    split at h
    -- a fraction takes the point and one digit more, at least
    · have hle := length_dropWhile_le Char.isDigit (d :: tail)
      rw [heq, List.length_cons] at hdrop
      cases h
      omega
    · obtain ⟨u, _, hu⟩ := Option.map_eq_some_iff.1 h
      cases hu
      exact hdrop
  · obtain ⟨u, _, hu⟩ := Option.map_eq_some_iff.1 h
    cases hu
    exact hdrop

theorem length_of_readText {quote : Char} {s rest : List Char} {t : Token}
    (h : readText quote s = some (t, rest)) : rest.length ≤ s.length := by
  have hdrop := length_dropWhile_le (· != quote) s
  unfold readText at h
  split at h
  · cases h
  · rename_i heq
    cases h
    rw [heq] at hdrop
    exact Nat.le_of_succ_le hdrop

theorem length_of_readSymbol {c : Char} {s rest : List Char} {t : Token}
    (h : readSymbol c s = some (t, rest)) : rest.length ≤ s.length := by
  have hmap : ∀ {t? : Option Token} {s' : List Char},
      (t?.map fun t => (t, s')) = some (t, rest) → s' = rest := by
    intro t? s' hmap
    obtain ⟨u, _, hu⟩ := Option.map_eq_some_iff.1 hmap
    cases hu
    rfl
  simp only [readSymbol] at h
  split at h
  · obtain hlonger | ⟨-, halone⟩ := Option.or_eq_some_iff.1 h
    · cases hmap hlonger
      exact Nat.le_succ _
    · cases hmap halone
      exact Nat.le_refl _
  · cases hmap h
    exact Nat.le_refl _

theorem length_of_read {c : Char} {s rest : List Char} {t : Token}
    (h : read c s = some (t, rest)) : rest.length ≤ s.length := by
  unfold read at h
  split at h
  · exact length_of_readNumber ‹_› h
  · split at h
    · exact length_of_readText h
    · split at h
      · cases h
        exact length_dropWhile_le _ s
      · exact length_of_readSymbol h

/-- The tokens of `s`, put behind the tokens already read, which come last first. -/
def scan (done : List Token) (s : List Char) : List Token :=
  match s with
  | [] => done.reverse
  | c :: rest =>
      if Text.isInlineBlank c then scan done rest
      else if c == '#' then done.reverse
      else
        match _h : read c rest with
        -- one stray token spoils the line, so the rest of it does not matter
        | none => (stray :: done).reverse
        | some (t, after) => scan (t :: done) after
  termination_by s.length
  decreasing_by
  · exact Nat.lt_succ_self _
  · exact Nat.lt_succ_of_le (length_of_read ‹_›)

def ofLine (line : List Char) : List Token :=
  scan [] line

end Token
end Script
end CodeSessions
