/-!
# Media types — what a body claims to be

A media type is `type/subtype`, where the subtype may end in `+suffix`, with parameters
`name=value` behind it.  Names are tokens, values are tokens or stand in quotes, and case does not
matter in the type.  `MediaType.parse?` splits one up; `MediaType.isJson` accepts `application/json`
and `application/*+json`.
-/

namespace CodeSessions
namespace Http

structure MediaType where
  type : List Char
  /-- What stands before the last plus sign. -/
  subtype : List Char
  suffix : Option (List Char)
  deriving DecidableEq, Repr

namespace MediaType

def isTokenChar (c : Char) : Bool :=
  c.isAlphanum ||
    ['!', '#', '$', '%', '&', '\x27', '*', '+', '-', '.', '^', '_', '`', '|', '~'].contains c

/-- A character that may stand in a quoted value. -/
def isQuotedChar (c : Char) : Bool :=
  31 < c.toNat && c.toNat != 127

/-! ## Parameters -/

/-- The places within the parameters. -/
inductive Place
  /-- Before a name. -/
  | start
  | name
  /-- Just after an equals sign. -/
  | valueStart
  | value
  /-- Just after an opening quote, where no closing quote can stand. -/
  | quotedStart
  | quoted
  | afterQuoted

/-- Whether the parameters are well formed from the given place on. -/
def paramsOk : Place → List Char → Bool
  | .start, [] => true
  | .start, c :: s => if c == ' ' then paramsOk .start s else isTokenChar c && paramsOk .name s
  | .name, [] => false
  | .name, c :: s => if c == '=' then paramsOk .valueStart s else isTokenChar c && paramsOk .name s
  | .valueStart, [] => true
  | .valueStart, c :: s =>
      if c == '"' then paramsOk .quotedStart s else isTokenChar c && paramsOk .value s
  | .value, [] => true
  | .value, c :: s => if c == ';' then paramsOk .start s else isTokenChar c && paramsOk .value s
  | .quotedStart, [] => false
  | .quotedStart, c :: s => isQuotedChar c && paramsOk .quoted s
  | .quoted, [] => false
  | .quoted, c :: s =>
      if c == '"' then paramsOk .afterQuoted s else isQuotedChar c && paramsOk .quoted s
  | .afterQuoted, [] => true
  | .afterQuoted, c :: s =>
      if c == ';' then paramsOk .start s else c == ' ' && paramsOk .afterQuoted s

/-! ## Media types -/

/-- Splits a subtype at its last plus sign, unless that is its first character. -/
def splitSuffix (s : List Char) : List Char × Option (List Char) :=
  let suffix := (s.reverse.takeWhile (· != '+')).reverse
  let before := s.take (s.length - suffix.length - 1)
  if s.contains '+' && !before.isEmpty then (before, some suffix) else (s, none)

/-- A semicolon ends the subtype. -/
def parse? (s : List Char) : Option MediaType :=
  let s := s.map Char.toLower
  let type := s.takeWhile isTokenChar
  match s.dropWhile isTokenChar with
  | '/' :: rest =>
      let full := rest.takeWhile isTokenChar
      if type.isEmpty || full.isEmpty then none
      else
        let (subtype, suffix) := splitSuffix full
        match rest.dropWhile isTokenChar with
        | [] => some { type, subtype, suffix }
        | ';' :: params => if paramsOk .start params then some { type, subtype, suffix } else none
        | _ => none
  | _ => none

def isJson (m : MediaType) : Bool :=
  m.type == "application".toList &&
    (m.subtype == "json".toList || m.suffix == some "json".toList)

end MediaType
end Http
end CodeSessions
