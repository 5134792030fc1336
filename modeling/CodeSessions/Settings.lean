import CodeSessions.Wire.Decoder
import CodeSessions.Wire.Written

/-!
# Settings — how a service is set up

The settings of a service, their defaults, and their JSON form.  Durations are whole milliseconds.
-/

namespace CodeSessions

/-- The field of a reply that tells of an unknown interpreter: `error`, or `result` for old clients.
-/
inductive Placement
  | normalized
  | legacy
  deriving DecidableEq, Repr

namespace Placement

def name : Placement → String
  | normalized => "normalized"
  | legacy => "legacy"

def ofName? (s : String) : Option Placement :=
  [normalized, legacy].find? fun p => p.name == s

def ofName (s : String) : Except Wire.Flaw Placement :=
  match ofName? s with
  | some p => .ok p
  | none => .error .mismatched

/-- Its name, or an object with its name as the only key and `null` as value. -/
def decoder : Wire.Decoder Placement := fun s =>
  match Wire.skipBlanks s with
  | some '"' :: s => do
      let (name, s) ← Wire.readText s
      let p ← ofName name
      .ok (p, s)
  | some '{' :: s => do
      let (name, s) ← Wire.Decoder.text s
      let p ← ofName name
      let s ← Wire.Decoder.colon s
      match Wire.skipBlanks s with
      | some 'n' :: s => do
          let s ← Wire.skipWord ['u', 'l', 'l'] s
          match Wire.skipBlanks s with
          | some '}' :: s => .ok (p, s)
          | _ => .error .malformed
      | s => .error (Wire.mismatch s)
  | _ => .error .malformed

end Placement

structure Settings where
  placement : Placement := .normalized
  /-- How long a session may lie idle before it is evicted; without it, for ever. -/
  idleLimit : Option UInt64 := none
  /-- The time between two sweeps for idle sessions. -/
  sweepInterval : UInt64 := 60000
  /-- How long a client waits for an evaluation; without it, to the end. -/
  timeLimit : Option UInt64 := none
  /-- Built-in names that are left out of the catalogue. -/
  disabledNames : List String := []
  deriving DecidableEq, Repr

namespace Settings

/-! ## Wire form -/

def writeWord (n : UInt64) : String :=
  Wire.natural n.toNat

def toWire (s : Settings) : String :=
  Wire.record [
    ("error_placement", Wire.text s.placement.name),
    ("session_idle_timeout", Wire.optional writeWord s.idleLimit),
    ("eviction_interval", writeWord s.sweepInterval),
    ("evaluation_timeout", Wire.optional writeWord s.timeLimit),
    ("disabled_engines", Wire.list (s.disabledNames.map Wire.text))]

def fields : List (Wire.Decoder.Field Settings) :=
  [ { name := "error_placement"
      read := fun draft s => do
        let (placement, s) ← Placement.decoder s
        .ok ({ draft with placement }, s) },
    { name := "session_idle_timeout"
      read := fun draft s => do
        let (idleLimit, s) ← Wire.Decoder.optional Wire.Decoder.word64 s
        .ok ({ draft with idleLimit }, s) },
    { name := "eviction_interval"
      read := fun draft s => do
        let (sweepInterval, s) ← Wire.Decoder.word64 s
        .ok ({ draft with sweepInterval }, s) },
    { name := "evaluation_timeout"
      read := fun draft s => do
        let (timeLimit, s) ← Wire.Decoder.optional Wire.Decoder.word64 s
        .ok ({ draft with timeLimit }, s) },
    { name := "disabled_engines"
      read := fun draft s => do
        let (disabledNames, s) ← Wire.Decoder.list Wire.Decoder.text s
        .ok ({ draft with disabledNames }, s) } ]

/-- Every field has a default. -/
def decoder : Wire.Decoder Settings :=
  Wire.Decoder.record fields {} some

def ofWire (source : Wire.Source) : Except Wire.Flaw Settings :=
  decoder.whole source

/-! ## Files -/

inductive LoadFailure
  /-- The file cannot be opened, for the reason that the system gives. -/
  | unopened (reason : String)
  | unread (flaw : Wire.Flaw)
  deriving DecidableEq, Repr

/-- Why settings are refused. The wording of a flaw in the JSON text is left open. -/
def LoadFailure.message : LoadFailure → String
  | unopened reason => "Failed to open config file: " ++ reason
  | unread .malformed => "Failed to parse config: malformed"
  | unread .mismatched => "Failed to parse config: unexpected value"

/-- The settings in a file, given the bytes of the file or the reason why there are none. -/
def ofFile (contents : Except String ByteArray) : Except LoadFailure Settings :=
  match contents with
  | .error reason => .error (.unopened reason)
  | .ok bytes => (ofWire (Wire.Source.ofBytes bytes)).mapError .unread

end Settings
end CodeSessions
