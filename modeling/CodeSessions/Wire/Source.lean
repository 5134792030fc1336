import CodeSessions.Text.Utf8

/-!
# Sources — JSON on its way in

A `Source` is what is left to read of a JSON text: its characters, with a `none` for every piece of
the bytes that is no character.  Reading stops at the first flaw, and the flaw says which of two
things went wrong: the text is not JSON (`malformed`), or it is JSON of the wrong shape
(`mismatched`).

- `readText` reads the rest of a text after its opening quote,
- `readNumeral` reads a number without evaluating it,
- `skipValue` passes over any value.  What is passed over is checked for its shape only: a text may
  hold broken characters and unpaired surrogates, and a number may have any size.
-/

namespace CodeSessions
namespace Wire

abbrev Source := List (Option Char)

def Source.ofText (s : String) : Source :=
  s.toList.map some

def Source.ofBytes (bytes : ByteArray) : Source :=
  Utf8.units bytes.toList

inductive Flaw
  | malformed
  | mismatched
  deriving DecidableEq, Repr

/-! ## Blanks and words -/

def isBlankUnit : Option Char → Bool
  | some c => c == ' ' || c == '\t' || c == '\n' || c == '\r'
  | none => false

def skipBlanks (s : Source) : Source :=
  s.dropWhile isBlankUnit

/-- Passes over the given letters. -/
def skipWord : List Char → Source → Except Flaw Source
  | [], s => .ok s
  | c :: letters, some d :: s => if c = d then skipWord letters s else .error .malformed
  | _, _ => .error .malformed

/-! ## Texts -/

def hexDigit? : Option Char → Option Nat
  | some c =>
      if '0' ≤ c ∧ c ≤ '9' then some (c.toNat - '0'.toNat)
      else if 'a' ≤ c ∧ c ≤ 'f' then some (c.toNat - 'a'.toNat + 10)
      else if 'A' ≤ c ∧ c ≤ 'F' then some (c.toNat - 'A'.toNat + 10)
      else none
  | none => none

/-- A number of four hexadecimal digits. -/
def readHex4 : Source → Option (Nat × Source)
  | a :: b :: c :: d :: s => do
      let a ← hexDigit? a
      let b ← hexDigit? b
      let c ← hexDigit? c
      let d ← hexDigit? d
      some (((a * 16 + b) * 16 + c) * 16 + d, s)
  | _ => none

def isHighSurrogate (n : Nat) : Bool :=
  0xD800 ≤ n && n < 0xDC00

def isLowSurrogate (n : Nat) : Bool :=
  0xDC00 ≤ n && n < 0xE000

/-- The character after `\u`, which takes a second escape if the first is a high surrogate. -/
def readCodePoint (s : Source) : Option (Char × Source) := do
  let (first, s) ← readHex4 s
  if isLowSurrogate first then none
  else if isHighSurrogate first then
    match s with
    | some '\\' :: some 'u' :: s => do
        let (second, s) ← readHex4 s
        if isLowSurrogate second then
          some (Char.ofNat (0x10000 + (first - 0xD800) * 0x400 + (second - 0xDC00)), s)
        else none
    | _ => none
  else some (Char.ofNat first, s)

/-- The character that a letter after a backslash stands for. -/
def escapeLetter? : Char → Option Char
  | '"' => some '"'
  | '\\' => some '\\'
  | '/' => some '/'
  | 'b' => some '\x08'
  | 'f' => some '\x0c'
  | 'n' => some '\n'
  | 'r' => some '\r'
  | 't' => some '\t'
  | _ => none

/-- The character after a backslash. -/
def readEscape : Source → Option (Char × Source)
  | some 'u' :: s => readCodePoint s
  | some c :: s => (escapeLetter? c).map fun d => (d, s)
  | _ => none

theorem length_of_readHex4 {s rest : Source} {n : Nat} (h : readHex4 s = some (n, rest)) :
    rest.length < s.length := by
  unfold readHex4 at h
  split at h
  · simp only [Option.bind_eq_bind, Option.bind_eq_some_iff, Option.some.injEq, Prod.mk.injEq] at h
    obtain ⟨_, _, _, _, _, _, _, _, _, rfl⟩ := h
    simp only [List.length_cons]
    omega
  · cases h

theorem length_of_readCodePoint {s rest : Source} {c : Char}
    (h : readCodePoint s = some (c, rest)) : rest.length < s.length := by
  unfold readCodePoint at h
  simp only [Option.bind_eq_bind, Option.bind_eq_some_iff] at h
  obtain ⟨⟨first, s'⟩, hfirst, h⟩ := h
  have hlt := length_of_readHex4 hfirst
  dsimp only at h
  split at h
  · cases h
  · split at h
    · split at h
      · rename_i tail
        obtain ⟨⟨second, s''⟩, hsecond, h⟩ := Option.bind_eq_some_iff.1 h
        have hlt' := length_of_readHex4 hsecond
        dsimp only at h
        split at h
        · simp only [Option.some.injEq, Prod.mk.injEq] at h
          simp only [List.length_cons] at hlt
          obtain ⟨_, rfl⟩ := h
          omega
        · cases h
      · cases h
    · simp only [Option.some.injEq, Prod.mk.injEq] at h
      exact h.2 ▸ hlt

theorem length_of_readEscape {s rest : Source} {c : Char} (h : readEscape s = some (c, rest)) :
    rest.length < s.length := by
  unfold readEscape at h
  split at h
  · have := length_of_readCodePoint h
    simp only [List.length_cons]
    omega
  · obtain ⟨_, _, h⟩ := Option.map_eq_some_iff.1 h
    cases h
    exact Nat.lt_succ_self _
  · cases h

/-- Reads up to the closing quote; `done` holds the characters before, last first. -/
def readTextFrom (done : List Char) (s : Source) : Except Flaw (String × Source) :=
  match s with
  | some '"' :: s => .ok (String.ofList done.reverse, s)
  | some '\\' :: s =>
      match _h : readEscape s with
      | some (c, rest) => readTextFrom (c :: done) rest
      | none => .error .malformed
  | some c :: s => if c.toNat < 0x20 then .error .malformed else readTextFrom (c :: done) s
  | _ => .error .malformed
  termination_by s.length
  decreasing_by
  · have := length_of_readEscape ‹_›
    simp only [List.length_cons]
    omega
  · exact Nat.lt_succ_self _

def readText (s : Source) : Except Flaw (String × Source) :=
  readTextFrom [] s

/-- Passes over what follows a backslash. -/
def skipEscape : Source → Option Source
  | some 'u' :: s => (readHex4 s).map Prod.snd
  | some c :: s => (escapeLetter? c).map fun _ => s
  | _ => none

theorem length_of_skipEscape {s rest : Source} (h : skipEscape s = some rest) :
    rest.length < s.length := by
  unfold skipEscape at h
  split at h
  · obtain ⟨⟨n, r⟩, hr, rfl⟩ := Option.map_eq_some_iff.1 h
    have := length_of_readHex4 hr
    simp only [List.length_cons]
    omega
  · obtain ⟨_, _, rfl⟩ := Option.map_eq_some_iff.1 h
    exact Nat.lt_succ_self _
  · cases h

/-- Passes over a text up to its closing quote. -/
def skipText (s : Source) : Except Flaw Source :=
  match s with
  | some '"' :: s => .ok s
  | some '\\' :: s =>
      match _h : skipEscape s with
      | some rest => skipText rest
      | none => .error .malformed
  | some c :: s => if c.toNat < 0x20 then .error .malformed else skipText s
  | none :: s => skipText s
  | [] => .error .malformed
  termination_by s.length
  decreasing_by
  · have := length_of_skipEscape ‹_›
    simp only [List.length_cons]
    omega
  · exact Nat.lt_succ_self _
  · exact Nat.lt_succ_self _

/-! ## Numbers -/

def digit? : Option Char → Option Nat
  | some c => if c.isDigit then some (c.toNat - '0'.toNat) else none
  | none => none

def isDigitUnit (u : Option Char) : Bool :=
  (digit? u).isSome

/-- The digits at the start of a source, and what follows them. -/
def readDigits (s : Source) : List Nat × Source :=
  ((s.takeWhile isDigitUnit).filterMap digit?, s.dropWhile isDigitUnit)

/-- The digits of a number as they are written. -/
structure Numeral where
  negative : Bool
  whole : List Nat
  /-- The digits after the point, if there is a point. -/
  fraction : Option (List Nat)
  /-- The power of ten after an `e`, if there is one. -/
  exponent : Option Int

/-- The integer part: without a leading zero unless it is all of it. -/
def readWhole (s : Source) : Except Flaw (List Nat × Source) :=
  match readDigits s with
  | ([], _) => .error .malformed
  | (0 :: _ :: _, _) => .error .malformed
  | (digits, s) => .ok (digits, s)

def readFraction : Source → Except Flaw (Option (List Nat) × Source)
  | some '.' :: s =>
      match readDigits s with
      | ([], _) => .error .malformed
      | (digits, s) => .ok (some digits, s)
  | s => .ok (none, s)

/-- The value of the digits of an exponent, where everything from `2 ^ 31` on counts as `2 ^ 31`. -/
def exponentValue (digits : List Nat) : Nat :=
  digits.foldl (fun n d => min (n * 10 + d) 0x80000000) 0

def readPower (sign : Int) (s : Source) : Except Flaw (Option Int × Source) :=
  match readDigits s with
  | ([], _) => .error .malformed
  | (digits, s) => .ok (some (sign * exponentValue digits), s)

def readExponent : Source → Except Flaw (Option Int × Source)
  | some 'e' :: s | some 'E' :: s =>
      match s with
      | some '-' :: s => readPower (-1) s
      | some '+' :: s => readPower 1 s
      | s => readPower 1 s
  | s => .ok (none, s)

def readUnsigned (negative : Bool) (s : Source) : Except Flaw (Numeral × Source) := do
  let (whole, s) ← readWhole s
  let (fraction, s) ← readFraction s
  let (exponent, s) ← readExponent s
  .ok ({ negative, whole, fraction, exponent }, s)

def readNumeral : Source → Except Flaw (Numeral × Source)
  | some '-' :: s => readUnsigned true s
  | s => readUnsigned false s

namespace Numeral

/-- The leading digits that fit in 64 bits, and the number of those that do not. -/
def leading (digits : List Nat) : Nat × Nat :=
  digits.foldl
    (fun (kept, dropped) d =>
      if dropped = 0 ∧ kept * 10 + d < UInt64.size then (kept * 10 + d, 0) else (kept, dropped + 1))
    (0, 0)

/-- The value of a number below `2 ^ 64` without a sign, a point and an exponent. -/
def word64? (n : Numeral) : Option Nat :=
  if n.negative || n.fraction.isSome || n.exponent.isSome then none
  else
    match leading n.whole with
    | (value, 0) => some value
    | (_, _ + 1) => none

/-- Appends fraction digits while they fit in 64 bits, and counts those that were appended, `places`
so far. -/
def appendFraction (kept places : Nat) : List Nat → Nat × Nat
  | [] => (kept, places)
  | d :: digits =>
      if kept * 10 + d < UInt64.size then appendFraction (kept * 10 + d) (places + 1) digits
      else (kept, places)

/-- Whether the number is too large for a double.  A number is read as at most 64 bits of digits
times a power of ten, and is too large if that power is above `10 ^ 308` or the product of the two
doubles is infinite. -/
def isTooLarge (n : Numeral) : Bool :=
  let (kept, dropped) := leading n.whole
  let (significand, places) := appendFraction kept 0 (n.fraction.getD [])
  let power : Int := dropped - places + n.exponent.getD 0
  significand != 0 && (308 < power ||
    (0 ≤ power &&
      ((UInt64.ofNat significand).toFloat * Float.ofScientific 1 false power.toNat).isInf))

end Numeral

/-! ## Passing over values -/

/-- Passes over a value that is no list and no record. -/
def skipScalar : Source → Except Flaw Source
  | some '"' :: s => skipText s
  | some 'n' :: s => skipWord ['u', 'l', 'l'] s
  | some 't' :: s => skipWord ['r', 'u', 'e'] s
  | some 'f' :: s => skipWord ['a', 'l', 's', 'e'] s
  | s => (readNumeral s).map Prod.snd

inductive Bracket
  | list
  | record

/-- What has to come next. -/
inductive Due
  | value
  | firstItem
  | firstKey
  | key
  /-- A comma or the end of the innermost bracket. -/
  | more

/-- Passes over the rest of a value, with the brackets that are open, innermost first.  At most two
steps are taken for every character. -/
def skipFrom : (fuel : Nat) → Due → List Bracket → Source → Except Flaw Source
  | 0, _, _, _ => .error .malformed
  | fuel + 1, .value, brackets, s =>
      match skipBlanks s with
      | some '[' :: s => skipFrom fuel .firstItem (.list :: brackets) s
      | some '{' :: s => skipFrom fuel .firstKey (.record :: brackets) s
      | s =>
          match skipScalar s with
          | .ok s => skipFrom fuel .more brackets s
          | .error flaw => .error flaw
  | fuel + 1, .firstItem, brackets, s =>
      match skipBlanks s with
      | some ']' :: s => skipFrom fuel .more brackets.tail s
      | s => skipFrom fuel .value brackets s
  | fuel + 1, .firstKey, brackets, s =>
      match skipBlanks s with
      | some '}' :: s => skipFrom fuel .more brackets.tail s
      | s => skipFrom fuel .key brackets s
  | fuel + 1, .key, brackets, s =>
      match skipBlanks s with
      | some '"' :: s =>
          match skipText s with
          | .ok s =>
              match skipBlanks s with
              | some ':' :: s => skipFrom fuel .value brackets s
              | _ => .error .malformed
          | .error flaw => .error flaw
      | _ => .error .malformed
  | _ + 1, .more, [], s => .ok s
  | fuel + 1, .more, .list :: outer, s =>
      match skipBlanks s with
      | some ',' :: s => skipFrom fuel .value (.list :: outer) s
      | some ']' :: s => skipFrom fuel .more outer s
      | _ => .error .malformed
  | fuel + 1, .more, .record :: outer, s =>
      match skipBlanks s with
      | some ',' :: s => skipFrom fuel .key (.record :: outer) s
      | some '}' :: s => skipFrom fuel .more outer s
      | _ => .error .malformed

/-- Passes over a value in a source of at most `bound` units. -/
def skipValue (bound : Nat) (s : Source) : Except Flaw Source :=
  skipFrom (2 * bound + 2) .value [] s

end Wire
end CodeSessions
