import CodeSessions.Http.Description
import CodeSessions.Http.MediaType
import CodeSessions.Http.Message
import CodeSessions.Http.Percent
import CodeSessions.Http.Route
import CodeSessions.Service.Basic
import CodeSessions.Timestamp

/-!
# Exchanges — a request, its response, and the service after it

`Http.exchange` answers one request.  Only two kinds of requests change the service: a `POST` of a
submission, which the service answers, and a `DELETE` of a session, which its store removes.

- The body of a submission has to be declared as JSON, may have up to `maxBodyBytes`, has to be
  JSON, and has to have the fields of a submission; it is refused for the first of these that fails.
- A failed evaluation is no failure of the exchange: it is told in the reply.
- Every response may be read from any origin, and every `OPTIONS` request is answered as a question
  about that.
-/

namespace CodeSessions
namespace Http

/-- The longest body of a request: 2 MiB. -/
def maxBodyBytes : Nat := 2097152

/-! ## Submissions -/

/-- Why a body is no submission. -/
inductive BodyFailure
  | notDeclaredJson
  | tooLong
  | flawed (flaw : Wire.Flaw)
  deriving DecidableEq, Repr

def BodyFailure.response : BodyFailure → Response
  | notDeclaredJson => .text 415 "Expected request with `Content-Type: application/json`"
  | tooLong => .text 413 "Failed to buffer the request body: length limit exceeded"
  | flawed .malformed => .text 400 "Failed to parse the request body as JSON: malformed"
  | flawed .mismatched =>
      .text 422 "Failed to deserialize the JSON body into the target type: unexpected value"

/-- A header value that can be read as text: tabs and printable ASCII characters. -/
def isReadable (value : String) : Bool :=
  value.toList.all fun c => c == '\t' || (0x20 ≤ c.toNat && c.toNat < 0x7F)

def declaresJson (r : Request) : Bool :=
  match r.header? "content-type" with
  | some value =>
      isReadable value && ((MediaType.parse? value.toList).map MediaType.isJson).getD false
  | none => false

/-- The submission in the body of a request. -/
def submission (r : Request) : Except BodyFailure Submission :=
  if !declaresJson r then .error .notDeclaredJson
  else if maxBodyBytes < r.body.size then .error .tooLong
  else (Submission.ofWire (Wire.Source.ofBytes r.body)).mapError .flawed

/-! ## Sessions -/

def errorBody (message : String) : String :=
  Wire.record [("error", Wire.text message)]

def unknownInterpreter (interpreter : String) : Response :=
  .json 404 (errorBody (Failure.unknownInterpreter interpreter).message)

def unknownSession (interpreter id : String) : Response :=
  .json 404 (errorBody ("Session '" ++ id ++ "' not found for interpreter '" ++ interpreter ++ "'"))

/-- The response to a segment that is not UTF-8 when decoded. -/
def badSegment (name : String) : Response :=
  .text 400 ("Invalid URL: Invalid UTF-8 in `" ++ name ++ "`")

def sessionToWire (session : Session) : String :=
  Wire.record [("sessionId", Wire.text session.id),
    ("createdAt", Wire.text (Timestamp.text session.createdAt)),
    ("lastUsedAt", Wire.text (Timestamp.text session.lastUsedAt))]

def sessionsResponse (s : Service) (interpreter : String) : Response :=
  if s.catalogue.contains interpreter then
    .json 200 (Wire.record [("interpreter", Wire.text interpreter),
      ("sessions", Wire.list ((s.store.sessions interpreter).map sessionToWire))])
  else unknownInterpreter interpreter

def removeSession (s : Service) (interpreter id : String) : Response × Service :=
  match s.store.remove interpreter id with
  | (store, true) => ({ status := 204 }, { s with store })
  | (_, false) => (unknownSession interpreter id, s)

/-! ## Exchanges -/

/-- The response of a resource to a method that it has. -/
def respond (s : Service) (now : Instant) (r : Request) : Route → Response × Service
  | .health => ({ status := 200 }, s)
  | .execute =>
      match submission r with
      | .error failure => (failure.response, s)
      | .ok submission =>
          let (reply, s) := s.answer now submission
          (.json 200 reply.toWire, s)
  | .interpreters =>
      (.json 200 (Wire.record [("interpreters", Wire.list (s.catalogue.names.map Wire.text))]), s)
  | .sessions interpreter =>
      match Percent.decode? interpreter with
      | none => (badSegment "interpreter", s)
      | some interpreter => (sessionsResponse s interpreter, s)
  | .session interpreter id =>
      match Percent.decode? interpreter, Percent.decode? id with
      | none, _ => (badSegment "interpreter", s)
      | some _, none => (badSegment "session_id", s)
      | some interpreter, some id => removeSession s interpreter id
  | .description => (.json 200 description, s)

/-- The answer to an `OPTIONS` request. -/
def preflight (route : Option Route) : Response :=
  let response : Response :=
    { status := 200
      headers := [⟨"access-control-allow-methods", "*"⟩, ⟨"access-control-allow-headers", "*"⟩] }
  match route with
  | some route => response.addHeader "allow" route.allow
  | none => response

def exchange (s : Service) (now : Instant) (r : Request) : Response × Service :=
  let (response, s) : Response × Service :=
    if r.method = "OPTIONS" then (preflight (Route.ofTarget? r.target), s)
    else
      match Route.ofTarget? r.target with
      | none => ({ status := 404 }, s)
      | some route =>
          if route.methods.contains r.method then
            let (response, s) := respond s now r route
            (if r.method = "HEAD" then { response with body := "" } else response, s)
          else ({ status := 405, headers := [⟨"allow", route.allow⟩] }, s)
  (response.addHeader "access-control-allow-origin" "*", s)

end Http
end CodeSessions
