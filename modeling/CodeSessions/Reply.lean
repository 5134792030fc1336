import CodeSessions.Settings
import CodeSessions.Text.Blank

/-!
# Replies — what a client gets back

Every submission is answered with a reply: its output without the blanks around it, or the message
of its failure.
-/

namespace CodeSessions

/-! ## Failures -/

/-- Why a submission has no output. -/
inductive Failure
  | noCell
  | unknownInterpreter (name : String)
  | fault (message : String)
  | timedOut (milliseconds : Nat)
  | internal (message : String)
  deriving DecidableEq, Repr

def Failure.message : Failure → String
  | noCell => "Requested code cannot be parsed"
  | unknownInterpreter name => "Unknown '" ++ name ++ "' as interpreter"
  | fault message => message
  | timedOut milliseconds => "Evaluation timed out after " ++ toString milliseconds ++ "ms"
  | internal message => "Internal error: " ++ message

/-- The output of a submission, or its failure. -/
abbrev Outcome := Except Failure String

/-! ## Replies -/

structure Reply where
  result : Option String := none
  error : Option String := none
  deriving DecidableEq, Repr

namespace Reply

def ofResult (result : String) : Reply :=
  { result := some result }

def ofError (error : String) : Reply :=
  { error := some error }

def isError (r : Reply) : Bool :=
  r.error.isSome

def ofFailure (placement : Placement) (failure : Failure) : Reply :=
  match failure, placement with
  | .unknownInterpreter _, .legacy => ofResult failure.message
  | _, _ => ofError failure.message

def ofOutcome (placement : Placement) : Outcome → Reply
  | .ok output => ofResult (Text.trim output)
  | .error failure => ofFailure placement failure

/-! ## Wire form -/

/-- `{"result": …, "error": …}`, without the fields that are absent. -/
def toWire (r : Reply) : String :=
  Wire.record
    (Wire.member? "result" (r.result.map Wire.text) ++ Wire.member? "error" (r.error.map Wire.text))

def fields : List (Wire.Decoder.Field Reply) :=
  [ { name := "result"
      read := fun draft s => do
        let (result, s) ← Wire.Decoder.optional Wire.Decoder.text s
        .ok ({ draft with result }, s) },
    { name := "error"
      read := fun draft s => do
        let (error, s) ← Wire.Decoder.optional Wire.Decoder.text s
        .ok ({ draft with error }, s) } ]

def decoder : Wire.Decoder Reply :=
  Wire.Decoder.record fields {} some

def ofWire (source : Wire.Source) : Except Wire.Flaw Reply :=
  decoder.whole source

end Reply
end CodeSessions
