import CodeSessions.Settings
import CodeSessions.Text.Split

/-!
# Addresses — where a server listens

An address is a host and a port: four decimal numbers with points between them, or an IPv6 address
in brackets, then a colon and the port.  Host names are no addresses.
-/

namespace CodeSessions
namespace Http

inductive Host
  /-- Four bytes. -/
  | v4 (bytes : List Nat)
  /-- Eight groups of sixteen bits, and the zone they are meant in. -/
  | v6 (groups : List Nat) (zone : Nat)
  deriving DecidableEq, Repr

structure Address where
  host : Host
  port : Nat
  deriving DecidableEq, Repr

namespace Address

/-! ## Numbers -/

def digitValue? (base : Nat) (c : Char) : Option Nat :=
  let value :=
    if '0' ≤ c ∧ c ≤ '9' then c.toNat - '0'.toNat
    else if 'a' ≤ c ∧ c ≤ 'f' then c.toNat - 'a'.toNat + 10
    else if 'A' ≤ c ∧ c ≤ 'F' then c.toNat - 'A'.toNat + 10
    else base
  if value < base then some value else none

/-- A number in the given base that does not exceed `limit`. -/
def number? (base limit : Nat) (digits : List Char) : Option Nat := do
  let values ← digits.mapM (digitValue? base)
  let n := values.foldl (fun n d => min (n * base + d) (limit + 1)) 0
  if digits.isEmpty || limit < n then none else some n

/-! ## Hosts -/

/-- A byte has at most three digits, and no leading zero unless it is all of it. -/
def byte? (digits : List Char) : Option Nat :=
  match digits with
  | '0' :: _ :: _ => none
  | _ => if digits.length ≤ 3 then number? 10 255 digits else none

def v4? (s : List Char) : Option (List Nat) := do
  let bytes ← (Text.splitOn '.' s).mapM byte?
  if bytes.length = 4 then some bytes else none

def group? (digits : List Char) : Option Nat :=
  if digits.length ≤ 4 then number? 16 0xFFFF digits else none

/-- Groups between colons; the last two of an address may be written as four bytes. -/
def groups? (s : List Char) : Option (List Nat) :=
  if s.isEmpty then some []
  else
    let parts := Text.splitOn ':' s
    let last := parts.getLast?.getD []
    if last.contains '.' then do
      let front ← parts.dropLast.mapM group?
      match ← v4? last with
      | [a, b, c, d] => some (front ++ [a * 256 + b, c * 256 + d])
      | _ => none
    else parts.mapM group?

/-- Cuts at the first two colons in a row. -/
def cutDoubleColon : List Char → Option (List Char × List Char)
  | ':' :: ':' :: rest => some ([], rest)
  | c :: rest => (cutDoubleColon rest).map fun (before, after) => (c :: before, after)
  | [] => none

/-- Eight groups, where a double colon stands for one or more zero groups. -/
def v6? (s : List Char) : Option (List Nat) :=
  match cutDoubleColon s with
  | none => do
      let groups ← groups? s
      if groups.length = 8 then some groups else none
  | some (before, after) => do
      if before.contains '.' then none
      else
        let front ← groups? before
        let back ← groups? after
        if front.length + back.length < 8 then
          some (front ++ List.replicate (8 - front.length - back.length) 0 ++ back)
        else none

/-! ## Addresses -/

def port? (s : List Char) : Option Nat :=
  number? 10 0xFFFF s

def host? : List Char → Option Host
  | '[' :: s =>
      match s.reverse with
      | ']' :: inner =>
          match Text.splitOn '%' inner.reverse with
          | [groups] => (v6? groups).map fun groups => .v6 groups 0
          | [groups, zone] => do
              let groups ← v6? groups
              let zone ← number? 10 0xFFFFFFFF zone
              some (.v6 groups zone)
          | _ => none
      | _ => none
  | s => (v4? s).map .v4

/-- The address that a host and a port make when they are joined by a colon; the last colon is the
one before the port. -/
def parse? (s : List Char) : Option Address := do
  let port := (s.reverse.takeWhile (· != ':')).reverse
  let host := s.take (s.length - port.length - 1)
  if s.contains ':' then some { host := ← host? host, port := ← port? port } else none

end Address

/-! ## Servers -/

/-- Where a server listens, and the settings of its service. -/
structure ServerSettings where
  host : String := "127.0.0.1"
  port : UInt16 := 3000
  service : Settings := {}

inductive StartFailure
  | badAddress
  deriving DecidableEq, Repr

def StartFailure.message : StartFailure → String
  | badAddress => "invalid socket address syntax"

/-- The address to listen on. -/
def ServerSettings.address (s : ServerSettings) : Except StartFailure Address :=
  match Address.parse? (s.host ++ ":" ++ toString s.port.toNat).toList with
  | some address => .ok address
  | none => .error .badAddress

end Http
end CodeSessions
