import CodeSessions.Wire.Source

/-!
# Decoders — JSON values of a known shape

A `Decoder` reads one value of a type off the front of a source.  `Decoder.whole` reads a text that
holds nothing else.

A record may be written as an object or as a list of its fields in order.  In an object, members of
unknown names are passed over and a known name may occur once; in a list, fields may be missing at
the end.  What a missing field means is decided by `finish`.
-/

namespace CodeSessions
namespace Wire

abbrev Decoder (α : Type) := Source → Except Flaw (α × Source)

/-- The flaw of a value of another kind than the one that is due: scalars are read to their end, so
a malformed one is reported as such. -/
def mismatch (s : Source) : Flaw :=
  let flawOf {α : Type} : Except Flaw α → Flaw
    | .ok _ => .mismatched
    | .error flaw => flaw
  match s with
  | some '[' :: _ | some '{' :: _ => .mismatched
  | some '"' :: s => flawOf (readText s)
  | some 'n' :: s => flawOf (skipWord ['u', 'l', 'l'] s)
  | some 't' :: s => flawOf (skipWord ['r', 'u', 'e'] s)
  | some 'f' :: s => flawOf (skipWord ['a', 'l', 's', 'e'] s)
  | s =>
      match readNumeral s with
      | .ok (n, _) => if n.isTooLarge then .malformed else .mismatched
      | .error flaw => flaw

namespace Decoder

/-! ## Scalars -/

def text : Decoder String := fun s =>
  match skipBlanks s with
  | some '"' :: s => readText s
  | s => .error (mismatch s)

/-- `null` stands for the absent value. -/
def optional {α : Type} (value : Decoder α) : Decoder (Option α) := fun s =>
  match skipBlanks s with
  | some 'n' :: s => (skipWord ['u', 'l', 'l'] s).map fun s => (none, s)
  | s => (value s).map fun (a, s) => (some a, s)

/-- A natural number below `2 ^ 64`, written without a sign, a point and an exponent. -/
def word64 : Decoder UInt64 := fun s =>
  let s := skipBlanks s
  match readNumeral s with
  | .ok (n, rest) =>
      match n.word64? with
      | some value => .ok (UInt64.ofNat value, rest)
      | none => .error (mismatch s)
  | .error _ => .error (mismatch s)

/-! ## Lists -/

/-- Reads the items of a list up to its end; `done` holds those before, last first.  Every item
takes at least one character of the source. -/
def itemsFrom {α : Type} (item : Decoder α) : (fuel : Nat) → List α → Decoder (List α)
  | 0, _, _ => .error .malformed
  | fuel + 1, done, s =>
      match skipBlanks s with
      | some ']' :: s => .ok (done.reverse, s)
      | some ',' :: s =>
          if done.isEmpty then .error .malformed
          else
            match skipBlanks s with
            | some ']' :: _ => .error .malformed
            | s => do
                let (a, s) ← item s
                itemsFrom item fuel (a :: done) s
      | s =>
          if done.isEmpty then do
            let (a, s) ← item s
            itemsFrom item fuel (a :: done) s
          else .error .malformed

def list {α : Type} (item : Decoder α) : Decoder (List α) := fun s =>
  match skipBlanks s with
  | some '[' :: s => itemsFrom item (s.length + 1) [] s
  | s => .error (mismatch s)

/-! ## Records -/

/-- A field of a record that is drafted as a `σ`: its name, and how its value goes into the draft.
-/
structure Field (σ : Type) where
  name : String
  read : σ → Decoder σ

def colon (s : Source) : Except Flaw Source :=
  match skipBlanks s with
  | some ':' :: s => .ok s
  | _ => .error .malformed

/-- The next key of an object, `none` at its end. -/
def nextKey (first : Bool) (s : Source) : Except Flaw (Option String × Source) :=
  match skipBlanks s with
  | some '}' :: s => .ok (none, s)
  | some '"' :: s =>
      if first then (readText s).map fun (key, s) => (some key, s) else .error .malformed
  | some ',' :: s =>
      if first then .error .malformed
      else
        match skipBlanks s with
        | some '"' :: s => (readText s).map fun (key, s) => (some key, s)
        | _ => .error .malformed
  | _ => .error .malformed

/-- Reads the members of an object up to its end, with the names that have occurred before.  The
source has at most `fuel` units, and every member takes some. -/
def membersFrom {σ : Type} (fields : List (Field σ)) :
    (fuel : Nat) → (seen : List String) → (first : Bool) → σ → Decoder σ
  | 0, _, _, _, _ => .error .malformed
  | fuel + 1, seen, first, draft, s => do
      match ← nextKey first s with
      | (none, s) => .ok (draft, s)
      | (some key, s) =>
          match fields.find? fun field => field.name == key with
          | some field =>
              if seen.contains key then .error .mismatched
              else do
                let s ← colon s
                let (draft, s) ← field.read draft s
                membersFrom fields fuel (key :: seen) false draft s
          | none => do
              let s ← colon s
              let s ← skipValue fuel s
              membersFrom fields fuel seen false draft s

/-- Whether a list goes on, with the source at its next item or after its end. -/
def nextItem (first : Bool) (s : Source) : Except Flaw (Bool × Source) :=
  match skipBlanks s with
  | some ']' :: s => .ok (false, s)
  | some ',' :: s =>
      if first then .error .malformed
      else
        match skipBlanks s with
        | some ']' :: _ => .error .malformed
        | s => .ok (true, s)
  | s => if first then .ok (true, s) else .error .malformed

/-- Reads the fields of a record that is written as a list. -/
def fieldsFrom {σ : Type} : List (Field σ) → (first : Bool) → σ → Decoder σ
  | [], _, draft, s =>
      match skipBlanks s with
      | some ']' :: s => .ok (draft, s)
      | _ => .error .malformed
  | field :: fields, first, draft, s => do
      match ← nextItem first s with
      | (false, s) => .ok (draft, s)
      | (true, s) =>
          let (draft, s) ← field.read draft s
          fieldsFrom fields false draft s

/-- A record with the given fields, drafted from `blank`.  Where `finish` gives nothing, a field is
missing. -/
def record {σ α : Type} (fields : List (Field σ)) (blank : σ) (finish : σ → Option α) :
    Decoder α := fun s => do
  let (draft, s) ←
    match skipBlanks s with
    | some '{' :: s => membersFrom fields (s.length + 1) [] true blank s
    | some '[' :: s => fieldsFrom fields true blank s
    | s => .error (mismatch s)
  match finish draft with
  | some a => .ok (a, s)
  | none => .error .mismatched

/-! ## Whole texts -/

/-- Reads a source that holds one value and, around it, blanks. -/
def whole {α : Type} (value : Decoder α) (s : Source) : Except Flaw α := do
  let (a, s) ← value s
  if (skipBlanks s).isEmpty then .ok a else .error .malformed

end Decoder
end Wire
end CodeSessions
