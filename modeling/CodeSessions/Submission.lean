import CodeSessions.Wire.Decoder
import CodeSessions.Wire.Written

/-!
# Submissions — what a client sends

The text of a cell, and the id of the session it is meant for.  An absent and an empty id both mean
that the cell belongs to no session, but they are told apart on the wire.
-/

namespace CodeSessions

structure Submission where
  code : String
  sessionId : Option String
  deriving DecidableEq, Repr

namespace Submission

/-- The session the cell belongs to. -/
def session? (s : Submission) : Option String :=
  s.sessionId.filter fun id => !id.isEmpty

/-! ## Wire form -/

/-- `{"code": …, "sessionId": …}`, without the id if it is absent. -/
def toWire (s : Submission) : String :=
  Wire.record
    (("code", Wire.text s.code) :: Wire.member? "sessionId" (s.sessionId.map Wire.text))

/-- The fields read so far. -/
structure Draft where
  code : Option String := none
  sessionId : Option String := none

def fields : List (Wire.Decoder.Field Draft) :=
  [ { name := "code"
      read := fun draft s => do
        let (code, s) ← Wire.Decoder.text s
        .ok ({ draft with code := some code }, s) },
    { name := "sessionId"
      read := fun draft s => do
        let (sessionId, s) ← Wire.Decoder.optional Wire.Decoder.text s
        .ok ({ draft with sessionId }, s) } ]

/-- The code has to be there. -/
def decoder : Wire.Decoder Submission :=
  Wire.Decoder.record fields {} fun draft =>
    draft.code.map fun code => { code, sessionId := draft.sessionId }

def ofWire (source : Wire.Source) : Except Wire.Flaw Submission :=
  decoder.whole source

end Submission
end CodeSessions
