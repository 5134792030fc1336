/-!
# Messages — requests and responses

The parts of HTTP messages that this service looks at or sets.
-/

namespace CodeSessions
namespace Http

/-- A header field. -/
structure Header where
  name : String
  value : String
  deriving DecidableEq, Repr

structure Request where
  method : String
  /-- The path with everything behind it. -/
  target : String
  headers : List Header := []
  body : ByteArray := .empty

/-- The value of the first header of a name, given in lower case. -/
def Request.header? (r : Request) (name : String) : Option String :=
  (r.headers.find? fun h => h.name.toLower == name).map Header.value

structure Response where
  status : Nat
  headers : List Header := []
  body : String := ""
  deriving DecidableEq, Repr

namespace Response

def addHeader (r : Response) (name value : String) : Response :=
  { r with headers := r.headers ++ [⟨name, value⟩] }

def ofBody (status : Nat) (contentType body : String) : Response :=
  { status, headers := [⟨"content-type", contentType⟩], body }

def json (status : Nat) (body : String) : Response :=
  ofBody status "application/json" body

def text (status : Nat) (body : String) : Response :=
  ofBody status "text/plain; charset=utf-8" body

end Response
end Http
end CodeSessions
