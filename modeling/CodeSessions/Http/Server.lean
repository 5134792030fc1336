import CodeSessions.Http.Exchange
import CodeSessions.Service.Flow

/-!
# Servers — requests while evaluations are under way

`Http.exchange` takes a submission to its end before it responds.  A server does not wait for that:
`Http.receive` makes a job of the submission, and the response tells the reply of the job as soon as
there is one.  Every other request is answered at once, as `exchange` answers it.
-/

namespace CodeSessions
namespace Http

/-- What a server has for a client when a request comes in. -/
inductive Receipt
  | answered (response : Response)
  /-- The response will tell the reply of the job with this number. -/
  | pending (number : Nat)
  deriving DecidableEq, Repr

/-- The response that tells a reply, be it of an output or of a failure. -/
def replied (reply : Reply) : Response :=
  (Response.json 200 reply.toWire).addHeader "access-control-allow-origin" "*"

/-- The submission of a request that makes one. -/
def submitted? (r : Request) : Option Submission :=
  if r.method = "POST" ∧ Route.ofTarget? r.target = some .execute then
    match submission r with
    | .ok submission => some submission
    | .error _ => none
  else none

def receive (f : Flow) (now : Instant) (r : Request) : Receipt × Flow :=
  match submitted? r with
  | some submission =>
      match f.submit now submission with
      | (f, .ok number) => (.pending number, f)
      | (f, .error reply) => (.answered (replied reply), f)
  | none =>
      let (response, service) := exchange f.service now r
      (.answered response, { f with service })

end Http
end CodeSessions
