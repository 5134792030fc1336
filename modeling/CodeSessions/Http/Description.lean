import CodeSessions.Wire.Written

/-!
# Description — the interface in machine-readable form

The operations of the service with their status codes, and the names of the records that they
exchange, as an OpenAPI document.
-/

namespace CodeSessions
namespace Http

structure Operation where
  path : String
  method : String
  /-- The status codes with what they say. -/
  statuses : List (Nat × String)

def operations : List Operation :=
  [ { path := "/execute", method := "post"
      statuses := [(200, "Evaluation outcome"), (422, "Body is not a valid execution request")] },
    { path := "/health", method := "get", statuses := [(200, "Server is up")] },
    { path := "/api/v1/interpreters", method := "get"
      statuses := [(200, "Registered interpreters")] },
    { path := "/api/v1/sessions/\x7binterpreter\x7d", method := "get"
      statuses := [(200, "Sessions listed"), (404, "Interpreter not registered")] },
    { path := "/api/v1/sessions/\x7binterpreter\x7d/\x7bsession_id\x7d", method := "delete"
      statuses := [(204, "Session removed"), (404, "No such session")] } ]

/-- The names of the exchanged records with their JSON types. -/
def schemas : List (String × String) :=
  [ ("ExecutionRequest", "object"), ("ResultResponse", "object"),
    ("InterpretersResponse", "object"), ("SessionsResponse", "object"), ("SessionInfo", "object"),
    ("String", "string") ]

def Operation.toWire (o : Operation) : String :=
  Wire.record [(o.method, Wire.record [("responses", Wire.record
    (o.statuses.map fun (code, meaning) =>
      (toString code, Wire.record [("description", Wire.text meaning)])))])]

def description : String :=
  Wire.record [
    ("openapi", Wire.text "3.1.0"),
    ("info", Wire.record [("title", Wire.text "Code sessions"), ("version", Wire.text "1")]),
    ("paths", Wire.record (operations.map fun o => (o.path, o.toWire))),
    ("components", Wire.record [("schemas", Wire.record
      (schemas.map fun (name, type) => (name, Wire.record [("type", Wire.text type)])))])]

end Http
end CodeSessions
