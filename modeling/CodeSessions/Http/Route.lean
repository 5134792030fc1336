import CodeSessions.Text.Split

/-!
# Routes — the resources of the service and their paths

A path is matched as it is written, segment by segment; only then are the segments that name an
interpreter or a session percent-decoded.

- `GET /health`
- `POST /execute`
- `GET /api/v1/interpreters`
- `GET /api/v1/sessions/{interpreter}`
- `DELETE /api/v1/sessions/{interpreter}/{session_id}`
- `GET /api-docs/openapi.json`

The interactive pages that show this description, under `/swagger-ui`, are left out: their paths
match no route, and are answered with 404.
-/

namespace CodeSessions
namespace Http

/-! ## Paths -/

def isSchemeChar (c : Char) : Bool :=
  c.isAlphanum || c == '+' || c == '-' || c == '.'

/-- A request target without the scheme and the host that an absolute one starts with. -/
def dropOrigin (target : List Char) : List Char :=
  match target.dropWhile isSchemeChar with
  | ':' :: '/' :: '/' :: rest => rest.dropWhile fun c => c != '/' && c != '?' && c != '#'
  | _ => target

/-- The path of a request target, which ends before a query or a fragment. -/
def pathOf (target : List Char) : List Char :=
  (dropOrigin target).takeWhile fun c => c != '?' && c != '#'

/-- The segments between slashes. -/
def segments (path : List Char) : List String :=
  (Text.splitOn '/' path).map String.ofList

/-! ## Routes -/

/-- A resource, with the segments of its path that vary as they are written. -/
inductive Route
  | health
  | execute
  | interpreters
  | sessions (interpreter : String)
  | session (interpreter id : String)
  | description
  deriving DecidableEq, Repr

namespace Route

/-- The resource at a path.  A varying segment that ends the path is not empty. -/
def ofSegments? : List String → Option Route
  | ["", "health"] => some health
  | ["", "execute"] => some execute
  | ["", "api", "v1", "interpreters"] => some interpreters
  | ["", "api", "v1", "sessions", interpreter] =>
      if interpreter.isEmpty then none else some (sessions interpreter)
  | ["", "api", "v1", "sessions", interpreter, id] =>
      if id.isEmpty then none else some (session interpreter id)
  | ["", "api-docs", "openapi.json"] => some description
  | _ => none

def ofTarget? (target : String) : Option Route :=
  ofSegments? (segments (pathOf target.toList))

/-- The methods of a resource.  Where a resource can be read, its headers alone can be, too. -/
def methods : Route → List String
  | execute => ["POST"]
  | session _ _ => ["DELETE"]
  | health | interpreters | sessions _ | description => ["GET", "HEAD"]

/-- The methods as the value of an `allow` header. -/
def allow (r : Route) : String :=
  ",".intercalate r.methods

end Route
end Http
end CodeSessions
