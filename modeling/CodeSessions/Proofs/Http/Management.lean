import CodeSessions.Proofs.Http.Refinement
import CodeSessions.Proofs.Service.Lifetimes
import CodeSessions.Proofs.Store.Census

/-!
# Management — every session can be listed and dropped

Whatever requests have come in, a session can be reached by a client who knows the names of its
interpreter and of itself, and who encodes them.

- `lists_sessionsTarget` and `removes_sessionTarget`: the paths with encoded names lead there,
- `Run.registered` and `Service.ne_empty_of_contains`: sessions are sessions of interpreters whose
  sessions can be asked for,
- `Listing` is a response with sessions, and `Drops` says what a removal leaves,
- `AsksFor` ties submissions to their jobs, and `StartsAnew` says of a session that the first
  evaluation for it finds nothing bound,
- `Forgotten` is what clients see of a session that is not there,
- `sessions_are_managed` puts this together.
-/

namespace CodeSessions

/-! ## Names of interpreters -/

namespace Catalogue

theorem contains_of_unregister {c : Catalogue} {name other : String}
    (h : (c.unregister name).contains other = true) : c.contains other = true := by
  simp only [contains, unregister, Table.contains, Table.get?_erase] at h ⊢
  split at h
  · cases h
  · exact h

theorem contains_of_unregisterAll {c : Catalogue} {names : List String} {other : String}
    (h : (c.unregisterAll names).contains other = true) : c.contains other = true := by
  induction names generalizing c with
  | nil => exact h
  | cons name names ih => exact contains_of_unregister (ih h)

end Catalogue

/-- The empty text is no name of an interpreter. -/
theorem Service.ne_empty_of_contains {settings : Settings} {interpreter : String}
    (h : (Service.ofSettings settings).catalogue.contains interpreter = true) :
    interpreter ≠ "" := by
  rintro rfl
  have hbuiltin : Catalogue.builtin.contains "" = false := rfl
  rw [Catalogue.contains_of_unregisterAll h] at hbuiltin
  cases hbuiltin

namespace Http

/-! ## Encoded names -/

theorem slash_not_mem_encode (s : String) : '/' ∉ (Percent.encode s).toList := by
  intro hmem
  have hslash := Percent.isSegmentChar_of_mem_encode hmem
  simp [Percent.isSegmentChar] at hslash

theorem ne_of_mem_encode {s : String} {c : Char} (hc : c ∈ (Percent.encode s).toList) :
    c ≠ '?' ∧ c ≠ '#' := by
  have hchar := Percent.isSegmentChar_of_mem_encode hc
  simp only [Percent.isSegmentChar, Bool.and_eq_true, bne_iff_ne] at hchar
  exact ⟨hchar.1.2, hchar.2⟩

/-- What stands behind the prefix of all sessions is part of the path. -/
theorem pathOf_sessions {s : List Char} (hs : ∀ c ∈ s, c ≠ '?' ∧ c ≠ '#') :
    pathOf ("/api/v1/sessions/".toList ++ s) = "/api/v1/sessions/".toList ++ s := by
  have hslash : "/api/v1/sessions/".toList = '/' :: "api/v1/sessions/".toList := rfl
  have hnames : ∀ c ∈ "api/v1/sessions/".toList, c ≠ '?' ∧ c ≠ '#' := by simp
  rw [hslash, List.cons_append, pathOf_cons_slash]
  intro c hc
  rcases List.mem_append.mp hc with hc | hc
  · exact hnames c hc
  · exact hs c hc

variable {r : Request} {interpreter id : String}

theorem lists_sessionsTarget (hmethod : r.method = "GET")
    (htarget : r.target = sessionsTarget interpreter) (hne : interpreter ≠ "") :
    r.Lists interpreter where
  method := hmethod
  path := by
    refine ⟨Percent.encode interpreter, slash_not_mem_encode interpreter,
      Percent.encode_ne_empty hne, ?_, Percent.decode?_encode interpreter⟩
    have htext : r.target.toList =
        "/api/v1/sessions/".toList ++ (Percent.encode interpreter).toList := by
      rw [htarget]
      unfold sessionsTarget
      simp only [String.toList_append]
    rw [htext]
    exact pathOf_sessions fun c hc => ne_of_mem_encode hc

theorem removes_sessionTarget (hmethod : r.method = "DELETE")
    (htarget : r.target = sessionTarget interpreter id) (hid : id ≠ "") :
    r.Removes interpreter id where
  method := hmethod
  path := by
    refine ⟨Percent.encode interpreter, Percent.encode id, slash_not_mem_encode interpreter,
      slash_not_mem_encode id, Percent.encode_ne_empty hid, ?_, Percent.decode?_encode interpreter,
      Percent.decode?_encode id⟩
    have hnames : ∀ c ∈ (Percent.encode interpreter).toList ++ '/' :: (Percent.encode id).toList,
        c ≠ '?' ∧ c ≠ '#' := by
      intro c hc
      rcases List.mem_append.mp hc with hc | hc
      · exact ne_of_mem_encode hc
      · rcases List.mem_cons.mp hc with rfl | hc
        · decide
        · exact ne_of_mem_encode hc
    have htext : r.target.toList = "/api/v1/sessions/".toList ++
        ((Percent.encode interpreter).toList ++ ("/".toList ++ (Percent.encode id).toList)) := by
      rw [htarget]
      unfold sessionTarget
      simp only [String.toList_append, List.append_assoc]
    have hslash : "/".toList = ['/'] := by decide
    rw [htext, hslash, List.singleton_append, pathOf_sessions hnames, List.append_assoc]

/-! ## States of a server -/

variable {settings : Settings} {events : List Event} {f f' : Flow} {now : Instant}

/-- Sessions are sessions of registered interpreters, and these are the ones of the settings. -/
theorem Run.registered (hrun : Run { service := .ofSettings settings } events f) :
    f.Registered ∧ f.service.catalogue = (Service.ofSettings settings).catalogue := by
  rcases hrun.simulates with ⟨calls, hsimulates⟩
  refine Flow.Registered.run ?_ (.idle .empty) hsimulates.run
  intro interpreter session hmem
  cases hmem

/-! ## Listings -/

/-- A response that tells the sessions of an interpreter. -/
structure Listing (response : Response) (interpreter : String) (sessions : List Session) :
    Prop where
  status : response.status = 200
  body : response.body = Wire.record [("interpreter", Wire.text interpreter),
    ("sessions", Wire.list (sessions.map sessionToWire))]

theorem receive_listing (f : Flow) (now : Instant) (h : r.Lists interpreter)
    (hknown : f.service.catalogue.contains interpreter = true) :
    ∃ response, receive f now r = (.answered response, f) ∧
      Listing response interpreter (f.service.store.sessions interpreter) := by
  refine ⟨_, receive_of_lists f now h, ?_, ?_⟩ <;>
    simp [sessionsResponse, hknown, Response.addHeader, Response.json, Response.ofBody]

/-! ## Removals -/

/-- A session is dropped, and nothing else is changed. -/
structure Drops (f : Flow) (interpreter id : String) (f' : Flow) : Prop where
  sessions : f'.service.store.sessions interpreter =
    (f.service.store.sessions interpreter).filter fun session => session.id ≠ id
  others : ∀ other, other ≠ interpreter →
    f'.service.store.sessions other = f.service.store.sessions other
  bindings : f'.service.store.bindings = f.service.store.bindings
  rest : f' = { f with service := { f.service with store := f'.service.store } }

theorem drops_remove (f : Flow) (interpreter id : String) :
    Drops f interpreter id (f.remove interpreter id).1 where
  sessions := by simp [Flow.remove, Store.sessions_remove]
  others := by
    intro other hother
    simp [Flow.remove, Store.sessions_remove, Ne.symm hother]
  bindings := by simp [Flow.remove]
  rest := rfl

theorem remove_found (f : Flow) (interpreter id : String) :
    (f.remove interpreter id).2 = (f.service.store.sessionAt (.session interpreter id)).isSome := by
  rcases hfind : f.service.store.find? interpreter id with _ | session <;>
    simp [Flow.remove, Store.remove, Store.sessionAt, hfind]

/-- A removed session is behind its key no longer. -/
theorem sessionAt_removed (f : Flow) (interpreter id : String) :
    (f.remove interpreter id).1.service.store.sessionAt (.session interpreter id) = none := by
  simp [Flow.remove, Store.sessionAt_remove]

/-- Where there is nothing to remove, nothing changes. -/
theorem remove_of_absent (h : f.service.store.sessionAt (.session interpreter id) = none) :
    f.remove interpreter id = (f, false) := by
  have hfind : f.service.store.find? interpreter id = none := h
  simp [Flow.remove, Store.remove, hfind]

/-! ## Sessions that come after others -/

theorem Simulates.exists_event {calls : List Flow.Event} (h : Simulates f events calls f')
    {call : Flow.Event} (hmem : call ∈ calls) :
    ∃ g, ∃ event ∈ events, Refines g event (some call) := by
  induction h with
  | nil => cases hmem
  | @snoc events calls g event call? g' _ hrefines _ ih =>
      rcases List.mem_append.mp hmem with hold | hlast
      · rcases ih hold with ⟨g, event, hevent, hrefines⟩
        exact ⟨g, event, List.mem_append_left _ hevent, hrefines⟩
      · rcases Option.mem_toList.mp hlast with rfl
        exact ⟨g, event, List.mem_append_right _ (List.mem_singleton_self _), hrefines⟩

theorem Simulates.exists_call {calls : List Flow.Event} (h : Simulates f events calls f')
    {event : Event} (hmem : event ∈ events) :
    ∃ g call?, Refines g event call? ∧ ∀ call ∈ call?, call ∈ calls := by
  induction h with
  | nil => cases hmem
  | @snoc events calls g event call? g' _ hrefines _ ih =>
      rcases List.mem_append.mp hmem with hold | hlast
      · rcases ih hold with ⟨g, call?, hrefines, hcalls⟩
        exact ⟨g, call?, hrefines, fun call hcall => List.mem_append_left _ (hcalls call hcall)⟩
      · rcases List.mem_singleton.mp hlast with rfl
        refine ⟨g, call?, hrefines, fun call hcall => ?_⟩
        exact List.mem_append_right _ (Option.mem_toList.mpr hcall)

/-- A submission with this target waits for the reply of the job with a number. -/
def AsksFor (c : Catalogue) (events : List Event) (n : Nat) (t : Target) : Prop :=
  ∃ now r submission, .received now r (.pending n) ∈ events ∧ r.Submits submission ∧
    c.target? submission = some t

theorem Simulates.asks_iff {calls : List Flow.Event} (h : Simulates f events calls f')
    {c : Catalogue} {n : Nat} {t : Target} : Flow.Asks c calls n t ↔ AsksFor c events n t := by
  constructor
  · rintro ⟨now, submission, hmem, htarget⟩
    rcases h.exists_event hmem with ⟨g, event, hevent, hrefines⟩
    cases hrefines with
    | submitted hsubmits => exact ⟨now, _, submission, hevent, hsubmits, htarget⟩
    | worked hjob => cases hjob
  · rintro ⟨now, r, submission, hmem, hsubmits, htarget⟩
    rcases h.exists_call hmem with ⟨g, call?, hrefines, hcalls⟩
    cases hrefines with
    | @submitted _ _ submission' _ hsubmits' =>
        have hsame := hsubmits.body.symm.trans hsubmits'.body
        cases hsame
        exact ⟨now, submission, hcalls _ rfl, htarget⟩

theorem Simulates.acquired {calls : List Flow.Event} (h : Simulates f events calls f') {n : Nat}
    (hmem : .acquired n ∈ calls) : ∃ response?, .worked (.acquired n) response? ∈ events := by
  rcases h.exists_event hmem with ⟨g, event, hevent, hrefines⟩
  cases hrefines with
  | worked hjob => exact ⟨_, hevent⟩

/-- The first evaluation for a session starts from nothing: whatever goes on, a job for it that is
there when none has started yet would be evaluated on empty bindings. -/
def StartsAnew (f : Flow) (interpreter id : String) : Prop :=
  ∀ events g, Run f events g →
    (∀ n t, AsksFor f.service.catalogue events n t → t.key = .session interpreter id →
      ∀ response?, .worked (.acquired n) response? ∉ events) →
    ∀ job ∈ g.jobs, ∀ t, AsksFor f.service.catalogue events job.number t →
      t.key = .session interpreter id → g.service.evaluation job.routed = t.evaluation .empty

theorem startsAnew_of_absent (h : f.WellFormed)
    (habsent : f.service.store.sessionAt (.session interpreter id) = none) :
    StartsAnew f interpreter id := by
  intro events g hrun hstart job hmem t hasks hkey
  rcases hrun.simulates with ⟨calls, hsimulates⟩
  have hk : f.service.store.environmentAt t.key = none := by simp [hkey, habsent]
  have hrenewed : Flow.Renewed f.service.catalogue calls t.key g := by
    refine .run h hk hsimulates.run fun n t' hasks' hkey' hacquired => ?_
    rcases hsimulates.acquired hacquired with ⟨response?, hevent⟩
    exact hstart n t' (hsimulates.asks_iff.mp hasks') (hkey'.trans hkey) response? hevent
  exact hrenewed.evaluation hmem (hsimulates.asks_iff.mpr hasks)

/-- A submission with a target becomes a job. -/
theorem receive_of_target (f : Flow) (now : Instant) {submission : Submission}
    (hsubmits : r.Submits submission) {t : Target}
    (htarget : f.service.catalogue.target? submission = some t) :
    ∃ g, receive f now r = (.pending f.nextNumber, g) ∧ f.enrolled now t ∈ g.jobs := by
  rw [receive_of_submits f now hsubmits]
  simp only [Flow.submit, Service.route_of_target htarget]
  exact ⟨_, rfl, List.mem_append_right _ (List.mem_singleton_self _)⟩

/-- A session is not there, and it is to its clients as if it had never been there. -/
structure Forgotten (f : Flow) (interpreter id : String) : Prop where
  unlisted : ∀ r now, r.method = "GET" → r.target = sessionsTarget interpreter →
    ∃ response, receive f now r = (.answered response, f) ∧
      Listing response interpreter (f.service.store.sessions interpreter) ∧
      ∀ session ∈ f.service.store.sessions interpreter, session.id ≠ id
  unknown : ∀ r now, r.method = "DELETE" → r.target = sessionTarget interpreter id →
    ∃ response, receive f now r = (.answered response, f) ∧ response.status = 404
  /-- A submission for it is evaluated on empty bindings, with other jobs under way or in one go. -/
  blank : ∀ r now submission t, r.Submits submission →
    f.service.catalogue.target? submission = some t → t.key = .session interpreter id →
    (∃ n g, receive f now r = (.pending n, g) ∧ ∃ job ∈ g.jobs, job.number = n ∧
      g.service.evaluation job.routed = t.evaluation .empty) ∧
    (exchange f.service now r).1 =
      replied (.ofOutcome f.service.placement ((t.evaluation .empty).outcome.mapError .fault))
  anew : StartsAnew f interpreter id

theorem forgotten_of_absent (h : f.WellFormed)
    (hknown : f.service.catalogue.contains interpreter = true) (hne : interpreter ≠ "")
    (hid : id ≠ "") (habsent : f.service.store.sessionAt (.session interpreter id) = none) :
    Forgotten f interpreter id where
  unlisted := by
    intro r now hmethod htarget
    rcases receive_listing f now (lists_sessionsTarget hmethod htarget hne) hknown with
      ⟨response, hreceive, hlisting⟩
    refine ⟨response, hreceive, hlisting, fun session hmem => ?_⟩
    simpa using List.find?_eq_none.mp habsent session hmem
  unknown := by
    intro r now hmethod htarget
    rcases receive_of_removes f now (removes_sessionTarget hmethod htarget hid) with
      ⟨response, hreceive, hstatus⟩
    rw [remove_of_absent habsent] at hreceive hstatus
    exact ⟨response, hreceive, hstatus⟩
  blank := by
    intro r now submission t hsubmits htarget hkey
    have hk : f.service.store.environmentAt t.key = none := by simp [hkey, habsent]
    constructor
    · rcases receive_of_target f now hsubmits htarget with ⟨g, hreceive, hmem⟩
      refine ⟨f.nextNumber, g, hreceive, _, hmem, rfl, ?_⟩
      refine startsAnew_of_absent h habsent [.received now r (.pending f.nextNumber)] g
        (.snoc .nil (.receive hreceive)) ?_ _ hmem t ?_ hkey
      · intro n t' _ _ response?
        simp
      · exact ⟨now, r, submission, List.mem_singleton_self _, hsubmits, htarget⟩
    · have hempty : f.service.evaluationOf t = t.evaluation .empty := by
        simp only [Service.evaluationOf, Store.bindingsAt, hk]
      rw [exchange_of_submits hsubmits, Service.answer_of_target h.store htarget, hempty]
  anew := startsAnew_of_absent h habsent

/-! ## Every session -/

/-- Whatever requests have come in, every session belongs to a registered interpreter, is listed
once, and can be dropped by its encoded names, alone and for good: the next evaluation for it starts
from nothing. -/
theorem sessions_are_managed (settings : Settings) {events : List Event} {f : Flow}
    (hrun : Run { service := .ofSettings settings } events f) {interpreter : String}
    {session : Session} (hsession : session ∈ f.service.store.sessions interpreter) :
    f.service.catalogue.contains interpreter = true ∧ session.id ≠ "" ∧
    (∀ r now, r.method = "GET" → r.target = sessionsTarget interpreter →
      ∃ response, receive f now r = (.answered response, f) ∧
        Listing response interpreter (f.service.store.sessions interpreter) ∧
        ((f.service.store.sessions interpreter).map fun other => other.id).count session.id = 1) ∧
    (∀ r now, r.method = "DELETE" → r.target = sessionTarget interpreter session.id →
      ∃ response f', receive f now r = (.answered response, f') ∧ response.status = 204 ∧
        Drops f interpreter session.id f' ∧ Forgotten f' interpreter session.id) := by
  have h : f.WellFormed := hrun.wellFormed (.idle .empty)
  rcases hrun.registered with ⟨hregistered, hcatalogue⟩
  have hknown := hregistered interpreter session hsession
  have hne : interpreter ≠ "" := Service.ne_empty_of_contains (hcatalogue ▸ hknown)
  have hfound := Store.sessionAt_of_mem_sessions h.store.toTidy hsession
  have hid : session.id ≠ "" := by
    intro hempty
    rw [hempty] at hfound
    cases hfound.symm.trans (h.store.named interpreter)
  refine ⟨hknown, hid, ?_, ?_⟩
  · intro r now hmethod htarget
    rcases receive_listing f now (lists_sessionsTarget hmethod htarget hne) hknown with
      ⟨response, hreceive, hlisting⟩
    refine ⟨response, hreceive, hlisting, ?_⟩
    exact List.count_eq_one_of_mem (h.store.ids interpreter) (List.mem_map_of_mem hsession)
  · intro r now hmethod htarget
    rcases receive_of_removes f now (removes_sessionTarget hmethod htarget hid) with
      ⟨response, hreceive, hstatus⟩
    rw [remove_found, hfound] at hstatus
    refine ⟨response, _, hreceive, hstatus, drops_remove f interpreter session.id, ?_⟩
    exact forgotten_of_absent (h.step (.remove interpreter session.id)) hknown hne hid
      (sessionAt_removed f interpreter session.id)

/-- A session whose id has a slash in it is dropped by the path in which the slash is encoded. -/
theorem sessions_are_managed_slash :
    let start : Flow := { service := .ofSettings {} }
    let r : Request := ⟨"DELETE", "/api/v1/sessions/%70%79%74%68%6F%6E/%61%2F%62", [], .empty⟩
    ∃ events f, Run start events f ∧ f.service.store.sessions "python" = [⟨⟨"a/b", 0, 0⟩, 1⟩] ∧
      ∃ response f', receive f 1 r = (.answered response, f') ∧ response.status = 204 ∧
        f'.service.store.sessions "python" = [] ∧ Forgotten f' "python" "a/b" := by
  intro start r
  have hsubmits :
      (submitting "\x7b\"code\":\"%python 1\",\"sessionId\":\"a/b\"\x7d").Submits
        ⟨"%python 1", some "a/b"⟩ :=
    submitting_submits (by decide +kernel)
  have hticket : (start.submit 0 ⟨"%python 1", some "a/b"⟩).2 = .ok 0 := rfl
  have hsessions : (start.submit 0 ⟨"%python 1", some "a/b"⟩).1.service.store.sessions "python" =
      [⟨⟨"a/b", 0, 0⟩, 1⟩] := rfl
  rcases hsubmit : start.submit 0 ⟨"%python 1", some "a/b"⟩ with ⟨f, ticket⟩
  rw [hsubmit] at hticket hsessions
  subst hticket
  have hreceive := receive_of_submits start 0 hsubmits
  rw [hsubmit] at hreceive
  have hrun : Run start _ f := .snoc .nil (.receive hreceive)
  have hsession : (⟨⟨"a/b", 0, 0⟩, 1⟩ : Session) ∈ f.service.store.sessions "python" := by
    simp [hsessions]
  have htarget : r.target = sessionTarget "python" "a/b" := by decide +kernel
  rcases (sessions_are_managed {} hrun hsession).2.2.2 r 1 rfl htarget with
    ⟨response, f', hremove, hstatus, hdrops, hforgotten⟩
  refine ⟨_, f, hrun, hsessions, response, f', hremove, hstatus, ?_, hforgotten⟩
  rw [hdrops.sessions, hsessions]
  rfl

end Http
end CodeSessions
