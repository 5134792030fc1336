import CodeSessions.Http.Server
import CodeSessions.Proofs.Http.Paths

/-!
# Calls — what a request asks of the service

Three kinds of requests have to do with sessions, and are told by their method, their raw path and
their body alone:

- `Request.Submits`: it brings a submission,
- `Request.Removes`: it drops a session,
- `Request.Lists`: it asks for the sessions of an interpreter.

`exchange_of_submits`, `exchange_of_removes` and `exchange_of_lists` say how they are answered, and
`exchange_snd_of_other` that no other request does anything to the service.
-/

namespace CodeSessions
namespace Http

/-! ## Kinds of requests -/

namespace Request

structure Submits (r : Request) (s : Submission) : Prop where
  method : r.method = "POST"
  path : pathOf r.target.toList = "/execute".toList
  body : submission r = .ok s

structure Removes (r : Request) (interpreter id : String) : Prop where
  method : r.method = "DELETE"
  path : ∃ first second : String, '/' ∉ first.toList ∧ '/' ∉ second.toList ∧ second ≠ "" ∧
    pathOf r.target.toList =
      "/api/v1/sessions/".toList ++ first.toList ++ '/' :: second.toList ∧
    Percent.decode? first = some interpreter ∧ Percent.decode? second = some id

structure Lists (r : Request) (interpreter : String) : Prop where
  method : r.method = "GET"
  path : ∃ segment : String, '/' ∉ segment.toList ∧ segment ≠ "" ∧
    pathOf r.target.toList = "/api/v1/sessions/".toList ++ segment.toList ∧
    Percent.decode? segment = some interpreter

end Request

variable {r : Request}

theorem Request.submits_iff {s : Submission} :
    r.Submits s ↔ r.method = "POST" ∧ Route.ofTarget? r.target = some .execute ∧
      submission r = .ok s := by
  rw [Route.ofTarget?_eq_execute_iff]
  constructor
  · intro h
    exact ⟨h.method, h.path, h.body⟩
  · rintro ⟨hmethod, hpath, hbody⟩
    exact ⟨hmethod, hpath, hbody⟩

theorem Request.removes_iff {interpreter id : String} :
    r.Removes interpreter id ↔ r.method = "DELETE" ∧ ∃ first second,
      Route.ofTarget? r.target = some (.session first second) ∧
        Percent.decode? first = some interpreter ∧ Percent.decode? second = some id := by
  constructor
  · rintro ⟨hmethod, first, second, hfirst, hsecond, hne, hpath, hdecoded⟩
    exact ⟨hmethod, first, second,
      Route.ofTarget?_eq_session_iff.2 ⟨hne, hfirst, hsecond, hpath⟩, hdecoded⟩
  · rintro ⟨hmethod, first, second, hroute, hdecoded⟩
    rcases Route.ofTarget?_eq_session_iff.1 hroute with ⟨hne, hfirst, hsecond, hpath⟩
    exact ⟨hmethod, first, second, hfirst, hsecond, hne, hpath, hdecoded⟩

theorem Request.lists_iff {interpreter : String} :
    r.Lists interpreter ↔ r.method = "GET" ∧ ∃ segment,
      Route.ofTarget? r.target = some (.sessions segment) ∧
        Percent.decode? segment = some interpreter := by
  constructor
  · rintro ⟨hmethod, segment, hsegment, hne, hpath, hdecoded⟩
    exact ⟨hmethod, segment, Route.ofTarget?_eq_sessions_iff.2 ⟨hne, hsegment, hpath⟩, hdecoded⟩
  · rintro ⟨hmethod, segment, hroute, hdecoded⟩
    rcases Route.ofTarget?_eq_sessions_iff.1 hroute with ⟨hne, hsegment, hpath⟩
    exact ⟨hmethod, segment, hsegment, hne, hpath, hdecoded⟩

theorem submitted?_eq_some_iff {s : Submission} : submitted? r = some s ↔ r.Submits s := by
  rw [Request.submits_iff]
  unfold submitted?
  constructor
  · intro h
    split at h
    · rename_i hroute
      split at h
      · rename_i hbody
        cases h
        exact ⟨hroute.1, hroute.2, hbody⟩
      · cases h
    · cases h
  · rintro ⟨hmethod, hroute, hbody⟩
    simp [hmethod, hroute, hbody]

theorem submitted?_eq_none (h : ∀ s, ¬ r.Submits s) : submitted? r = none := by
  rcases hsubmitted : submitted? r with _ | s
  · rfl
  · exact absurd (submitted?_eq_some_iff.1 hsubmitted) (h s)

/-- The request that brings a body of JSON. -/
def submitting (body : String) : Request where
  method := "POST"
  target := "/execute"
  headers := [⟨"content-type", "application/json"⟩]
  body := body.toUTF8

theorem submitting_submits {body : String} {s : Submission}
    (h : submission (submitting body) = .ok s) : (submitting body).Submits s where
  method := rfl
  path := by
    change pathOf "/execute".toList = "/execute".toList
    decide
  body := h

/-! ## Answers -/

variable {s : Service} {now : Instant} {route : Route}

theorem exchange_eq_respond (hroute : Route.ofTarget? r.target = some route)
    (hmethod : r.method ∈ route.methods) :
    exchange s now r =
      ((if r.method = "HEAD" then { (respond s now r route).1 with body := "" }
        else (respond s now r route).1).addHeader "access-control-allow-origin" "*",
        (respond s now r route).2) := by
  have hoptions : r.method ≠ "OPTIONS" := by
    intro h
    rw [h] at hmethod
    cases route <;> simp [Route.methods] at hmethod
  simp [exchange, hoptions, hroute, hmethod]

/-- A submission is answered with the reply of the service, whatever that says. -/
theorem exchange_of_submits {submitted : Submission} (h : r.Submits submitted) :
    exchange s now r = (replied (s.answer now submitted).1, (s.answer now submitted).2) := by
  rcases Request.submits_iff.1 h with ⟨hmethod, hroute, hbody⟩
  have hmem : r.method ∈ Route.methods .execute := by simp [hmethod, Route.methods]
  have hget : r.method ≠ "HEAD" := by simp [hmethod]
  rw [exchange_eq_respond hroute hmem, if_neg hget]
  simp only [respond, hbody]
  rfl

theorem exchange_of_removes {interpreter id : String} (h : r.Removes interpreter id) :
    exchange s now r =
      ((removeSession s interpreter id).1.addHeader "access-control-allow-origin" "*",
        (removeSession s interpreter id).2) := by
  rcases Request.removes_iff.1 h with ⟨hmethod, first, second, hroute, hfirst, hsecond⟩
  have hmem : r.method ∈ Route.methods (.session first second) := by simp [hmethod, Route.methods]
  have hget : r.method ≠ "HEAD" := by simp [hmethod]
  rw [exchange_eq_respond hroute hmem, if_neg hget]
  simp only [respond, hfirst, hsecond]

theorem exchange_of_lists {interpreter : String} (h : r.Lists interpreter) :
    exchange s now r =
      ((sessionsResponse s interpreter).addHeader "access-control-allow-origin" "*", s) := by
  rcases Request.lists_iff.1 h with ⟨hmethod, segment, hroute, hsegment⟩
  have hmem : r.method ∈ Route.methods (.sessions segment) := by simp [hmethod, Route.methods]
  have hget : r.method ≠ "HEAD" := by simp [hmethod]
  rw [exchange_eq_respond hroute hmem, if_neg hget]
  simp only [respond, hsegment]

/-- No other request does anything to the service. -/
theorem exchange_snd_of_other (hsubmits : ∀ submitted, ¬ r.Submits submitted)
    (hremoves : ∀ interpreter id, ¬ r.Removes interpreter id) : (exchange s now r).2 = s := by
  rcases hroute : Route.ofTarget? r.target with _ | route
  · by_cases hoptions : r.method = "OPTIONS" <;> simp [exchange, hroute, hoptions]
  · by_cases hmem : r.method ∈ route.methods
    · rw [exchange_eq_respond hroute hmem]
      cases route with
      | execute =>
          have hmethod : r.method = "POST" := by simpa [Route.methods] using hmem
          rcases hbody : submission r with failure | submitted
          · simp only [respond, hbody]
          · exact absurd (Request.submits_iff.2 ⟨hmethod, hroute, hbody⟩) (hsubmits submitted)
      | session first second =>
          have hmethod : r.method = "DELETE" := by simpa [Route.methods] using hmem
          rcases hfirst : Percent.decode? first with _ | interpreter
          · simp only [respond, hfirst]
          · rcases hsecond : Percent.decode? second with _ | id
            · simp only [respond, hfirst, hsecond]
            · have hremove : r.Removes interpreter id :=
                Request.removes_iff.2 ⟨hmethod, first, second, hroute, hfirst, hsecond⟩
              exact absurd hremove (hremoves interpreter id)
      | sessions segment =>
          rcases hsegment : Percent.decode? segment with _ | interpreter <;>
          simp only [respond, hsegment]
      | health | interpreters | description => rfl
    · by_cases hoptions : r.method = "OPTIONS" <;> simp [exchange, hroute, hoptions, hmem]

end Http
end CodeSessions
