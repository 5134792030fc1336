import CodeSessions.Proofs.Http.Management
import CodeSessions.Proofs.Wire.RoundTrip

/-!
# Listings — what the service tells of its interpreters and sessions

The listings are read back as the names and the sessions that there are, whatever texts these have.

- `SessionList` is what a client reads of the sessions of an interpreter,
- `namesOfWire_respond`, `Listing.ofWire_body` and `ofWire_sessionsResponse` are the round trips.

The points in time of a session are read as texts: what the service tells of them is their
timestamps.
-/

namespace CodeSessions

open Wire

namespace Http

/-! ## The interpreters -/

def namesDecoder : Decoder (List String) :=
  Decoder.record
    [ { name := "interpreters"
        read := fun _ s => do
          let (names, s) ← Decoder.list Decoder.text s
          .ok (some names, s) } ]
    none id

def namesOfWire (source : Source) : Except Flaw (List String) :=
  namesDecoder.whole source

/-- The names of the catalogue are read back from the response, in their order. -/
theorem namesOfWire_respond (s : Service) (now : Instant) (r : Request) :
    namesOfWire (Source.ofText (respond s now r .interpreters).1.body) = .ok s.catalogue.names := by
  have hnames := (Decoder.reads_list Decoder.reads_text leads_text s.catalogue.names).map some
  have hread : namesDecoder.Reads (respond s now r .interpreters).1.body s.catalogue.names :=
    Decoder.reads_record (.cons rfl rfl hnames .nil) rfl
  exact hread.whole

/-! ## Sessions -/

/-- What a listing tells of a session. -/
structure SessionEntry where
  id : String
  createdAt : String
  lastUsedAt : String

namespace SessionEntry

def ofInfo (info : SessionInfo) : SessionEntry :=
  { id := info.id
    createdAt := Timestamp.text info.createdAt
    lastUsedAt := Timestamp.text info.lastUsedAt }

def toWire (entry : SessionEntry) : String :=
  Wire.record [("sessionId", Wire.text entry.id), ("createdAt", Wire.text entry.createdAt),
    ("lastUsedAt", Wire.text entry.lastUsedAt)]

/-- The members read so far. -/
structure Draft where
  id : Option String := none
  createdAt : Option String := none
  lastUsedAt : Option String := none

def fields : List (Decoder.Field Draft) :=
  [ { name := "sessionId"
      read := fun draft s => do
        let (id, s) ← Decoder.text s
        .ok ({ draft with id := some id }, s) },
    { name := "createdAt"
      read := fun draft s => do
        let (createdAt, s) ← Decoder.text s
        .ok ({ draft with createdAt := some createdAt }, s) },
    { name := "lastUsedAt"
      read := fun draft s => do
        let (lastUsedAt, s) ← Decoder.text s
        .ok ({ draft with lastUsedAt := some lastUsedAt }, s) } ]

def decoder : Decoder SessionEntry :=
  Decoder.record fields {} fun draft => do
    some { id := ← draft.id, createdAt := ← draft.createdAt, lastUsedAt := ← draft.lastUsedAt }

theorem reads_decoder (entry : SessionEntry) : decoder.Reads entry.toWire entry := by
  -- one field after the other, in the order in which they are written
  have hid := (Decoder.reads_text entry.id).map fun id => ({ id := some id } : Draft)
  have hcreated := (Decoder.reads_text entry.createdAt).map fun createdAt =>
    ({ id := some entry.id, createdAt := some createdAt } : Draft)
  have hused := (Decoder.reads_text entry.lastUsedAt).map fun lastUsedAt =>
    ({ id := some entry.id, createdAt := some entry.createdAt, lastUsedAt := some lastUsedAt } :
      Draft)
  exact Decoder.reads_record (.cons rfl rfl hid (.cons rfl rfl hcreated (.cons rfl rfl hused .nil)))
    rfl

theorem leads_toWire (entry : SessionEntry) : Leads entry.toWire :=
  leads_record _

end SessionEntry

/-! ## The sessions of an interpreter -/

structure SessionList where
  interpreter : String
  sessions : List SessionEntry

namespace SessionList

def ofSessions (interpreter : String) (sessions : List Session) : SessionList :=
  { interpreter, sessions := sessions.map fun session => .ofInfo session.toSessionInfo }

/-- The members read so far. -/
structure Draft where
  interpreter : Option String := none
  sessions : Option (List SessionEntry) := none

def fields : List (Decoder.Field Draft) :=
  [ { name := "interpreter"
      read := fun draft s => do
        let (interpreter, s) ← Decoder.text s
        .ok ({ draft with interpreter := some interpreter }, s) },
    { name := "sessions"
      read := fun draft s => do
        let (sessions, s) ← Decoder.list SessionEntry.decoder s
        .ok ({ draft with sessions := some sessions }, s) } ]

def decoder : Decoder SessionList :=
  Decoder.record fields {} fun draft => do
    some { interpreter := ← draft.interpreter, sessions := ← draft.sessions }

def ofWire (source : Source) : Except Flaw SessionList :=
  decoder.whole source

end SessionList

/-- A response that tells the sessions of an interpreter is read back as these sessions, in their
order and with all that they tell of themselves. -/
theorem Listing.ofWire_body {response : Response} {interpreter : String} {sessions : List Session}
    (h : Listing response interpreter sessions) :
    SessionList.ofWire (Source.ofText response.body) = .ok (.ofSessions interpreter sessions) := by
  -- nothing is written of a session but what its entry tells
  let entries := (SessionList.ofSessions interpreter sessions).sessions
  have hbody : response.body =
      Wire.record [("interpreter", Wire.text interpreter),
        ("sessions", Wire.list (entries.map SessionEntry.toWire))] := by
    simp only [h.body, entries, SessionList.ofSessions, List.map_map]
    rfl
  have hname := (Decoder.reads_text interpreter).map fun interpreter =>
    ({ interpreter := some interpreter } : SessionList.Draft)
  have hentries := (Decoder.reads_list SessionEntry.reads_decoder SessionEntry.leads_toWire
    entries).map fun sessions =>
      ({ interpreter := some interpreter, sessions := some sessions } : SessionList.Draft)
  have hread : SessionList.decoder.Reads response.body (.ofSessions interpreter sessions) := by
    rw [hbody]
    exact Decoder.reads_record (.cons rfl rfl hname (.cons rfl rfl hentries .nil)) rfl
  exact hread.whole

theorem ofWire_sessionsResponse {s : Service} {interpreter : String}
    (h : s.catalogue.contains interpreter = true) :
    SessionList.ofWire (Source.ofText (sessionsResponse s interpreter).body) =
      .ok (.ofSessions interpreter (s.store.sessions interpreter)) := by
  have hlisting : Listing (sessionsResponse s interpreter) interpreter
      (s.store.sessions interpreter) := by
    constructor <;> simp [sessionsResponse, h, Response.json, Response.ofBody]
  exact hlisting.ofWire_body

end Http
end CodeSessions
