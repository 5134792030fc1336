import CodeSessions.Proofs.Http.Calls
import CodeSessions.Proofs.Service.Completion

/-!
# Refinement — a server does what its clients could do with the library

A server goes from state to state when a request comes in and when a job takes a step.

- `Http.Event`, `Http.Step` and `Http.Run` are the steps of a server with what clients see of them,
- `Refines` says which call of the library, if any, an event of the server comes to, and what the
  client is told,
- `Simulates` are the runs in which server and library go through the same states,
- `Step.refines` is the step and `Run.simulates` the run,
- `exists_response`: a client that waits can always be told,
- `exchange_eq_receive`: where nothing is under way, `exchange` takes the same way in one go,
- `refines_library` puts this together.
-/

namespace CodeSessions

namespace Http

/-! ## Steps -/

inductive Event
  | received (now : Instant) (r : Request) (receipt : Receipt)
  /-- A job takes a step, and with some of them its client gets a response. -/
  | worked (call : Flow.Event) (response? : Option Response)

inductive Step (f : Flow) : Event → Flow → Prop
  | receive {now r receipt f'} (h : receive f now r = (receipt, f')) :
      Step f (.received now r receipt) f'
  | work {call n f'} (h : Flow.Step f call f') (hjob : call.number? = some n) :
      Step f (.worked call (call.reply?.map replied)) f'

inductive Run (f : Flow) : List Event → Flow → Prop
  | nil : Run f [] f
  | snoc {events g event g'} : Run f events g → Step g event g' → Run f (events ++ [event]) g'

/-! ## Calls of the library -/

/-- What an event of a server comes to in the library, in the state `f`. -/
inductive Refines (f : Flow) : Event → Option Flow.Event → Prop
  | submitted {now r submission n} (h : r.Submits submission) :
      Refines f (.received now r (.pending n)) (some (.submitted n now submission))
  /-- The library replies at once. -/
  | refused {now r submission reply} (h : r.Submits submission) :
      Refines f (.received now r (.answered (replied reply))) (some (.refused now submission reply))
  | removed {now r interpreter id found response} (h : r.Removes interpreter id)
      (hstatus : response.status = if found then 204 else 404) :
      Refines f (.received now r (.answered response)) (some (.removed interpreter id found))
  | listed {now r interpreter response} (h : r.Lists interpreter)
      (hknown : f.service.catalogue.contains interpreter = true → response.status = 200 ∧
        response.body = Wire.record [("interpreter", Wire.text interpreter),
          ("sessions", Wire.list ((f.service.store.sessions interpreter).map sessionToWire))])
      (hunknown : f.service.catalogue.contains interpreter = false → response.status = 404) :
      Refines f (.received now r (.answered response)) none
  | other {now r response} (hsubmits : ∀ submission, ¬ r.Submits submission)
      (hremoves : ∀ interpreter id, ¬ r.Removes interpreter id)
      (hlists : ∀ interpreter, ¬ r.Lists interpreter) :
      Refines f (.received now r (.answered response)) none
  | worked {call n} (hjob : call.number? = some n) :
      Refines f (.worked call (call.reply?.map replied)) (some call)

/-- A call is a step of the library, and no call is none. -/
def Performs (f : Flow) (call? : Option Flow.Event) (f' : Flow) : Prop :=
  match call? with
  | some call => Flow.Step f call f'
  | none => f' = f

/-- The library makes the calls that the events come to, and its states are those of the server. -/
inductive Simulates (f : Flow) : List Event → List Flow.Event → Flow → Prop
  | nil : Simulates f [] [] f
  | snoc {events calls g event call? g'} : Simulates f events calls g → Refines g event call? →
      Performs g call? g' → Simulates f (events ++ [event]) (calls ++ call?.toList) g'

/-! ## Requests -/

variable {f f' : Flow} {now : Instant} {r : Request}

theorem receive_of_submits (f : Flow) (now : Instant) {s : Submission} (h : r.Submits s) :
    receive f now r =
      match f.submit now s with
      | (f, .ok number) => (.pending number, f)
      | (f, .error reply) => (.answered (replied reply), f) := by
  have hsubmitted := submitted?_eq_some_iff.2 h
  rcases hsubmit : f.submit now s with ⟨g, reply | n⟩ <;>
    simp only [receive, hsubmitted, hsubmit]

theorem receive_of_not_submits (f : Flow) (now : Instant) (h : ∀ s, ¬ r.Submits s) :
    receive f now r =
      (.answered (exchange f.service now r).1,
        { f with service := (exchange f.service now r).2 }) := by
  simp only [receive, submitted?_eq_none h]

theorem Request.Removes.not_submits {interpreter id : String} (h : r.Removes interpreter id)
    (s : Submission) : ¬ r.Submits s := by
  intro hsubmits
  have hmethods := h.method.symm.trans hsubmits.method
  simp at hmethods

theorem Request.Lists.not_submits {interpreter : String} (h : r.Lists interpreter)
    (s : Submission) : ¬ r.Submits s := by
  intro hsubmits
  have hmethods := h.method.symm.trans hsubmits.method
  simp at hmethods

/-- A removal is the removal of the library, and the status tells what it returns. -/
theorem receive_of_removes (f : Flow) (now : Instant) {interpreter id : String}
    (h : r.Removes interpreter id) :
    ∃ response, receive f now r = (.answered response, (f.remove interpreter id).1) ∧
      response.status = if (f.remove interpreter id).2 then 204 else 404 := by
  rw [receive_of_not_submits f now h.not_submits, exchange_of_removes h]
  rcases hfind : f.service.store.find? interpreter id with _ | session
  · -- the store is the same without a session to drop
    refine ⟨(unknownSession interpreter id).addHeader "access-control-allow-origin" "*", ?_, ?_⟩
    · simp [removeSession, Flow.remove, Store.remove, hfind]
    · simp [Flow.remove, Store.remove, hfind]
      rfl
  · refine ⟨({ status := 204 } : Response).addHeader "access-control-allow-origin" "*", ?_, ?_⟩
    · simp [removeSession, Flow.remove, Store.remove, hfind]
    · simp [Flow.remove, Store.remove, hfind, Response.addHeader]

theorem receive_of_lists (f : Flow) (now : Instant) {interpreter : String}
    (h : r.Lists interpreter) :
    receive f now r =
      (.answered ((sessionsResponse f.service interpreter).addHeader
        "access-control-allow-origin" "*"), f) := by
  rw [receive_of_not_submits f now h.not_submits, exchange_of_lists h]

theorem receive_of_other (f : Flow) (now : Instant) (hsubmits : ∀ s, ¬ r.Submits s)
    (hremoves : ∀ interpreter id, ¬ r.Removes interpreter id) :
    receive f now r = (.answered (exchange f.service now r).1, f) := by
  rw [receive_of_not_submits f now hsubmits, exchange_snd_of_other hsubmits hremoves]

/-! ## Steps and runs -/

/-- What an event comes to, the library does. -/
theorem Step.refines {event : Event} (hstep : Step f event f') :
    ∃ call?, Refines f event call? ∧ Performs f call? f' := by
  cases hstep with
  | @receive now r receipt f' h =>
      by_cases hsubmits : ∃ s, r.Submits s
      · rcases hsubmits with ⟨s, hsubmits⟩
        rw [receive_of_submits f now hsubmits] at h
        rcases hsubmit : f.submit now s with ⟨g, reply | n⟩
        · simp only [hsubmit] at h
          cases h
          exact ⟨_, .refused hsubmits, .refuse hsubmit⟩
        · simp only [hsubmit] at h
          cases h
          exact ⟨_, .submitted hsubmits, .submit hsubmit⟩
      · have hsubmits : ∀ s, ¬ r.Submits s := fun s hs => hsubmits ⟨s, hs⟩
        by_cases hremoves : ∃ interpreter id, r.Removes interpreter id
        · rcases hremoves with ⟨interpreter, id, hremoves⟩
          rcases receive_of_removes f now hremoves with ⟨response, hreceive, hstatus⟩
          cases hreceive.symm.trans h
          exact ⟨_, .removed hremoves hstatus, .remove interpreter id⟩
        · have hremoves : ∀ interpreter id, ¬ r.Removes interpreter id :=
            fun interpreter id hr => hremoves ⟨interpreter, id, hr⟩
          by_cases hlists : ∃ interpreter, r.Lists interpreter
          · rcases hlists with ⟨interpreter, hlists⟩
            cases (receive_of_lists f now hlists).symm.trans h
            refine ⟨none, .listed hlists ?_ ?_, rfl⟩
            · intro hknown
              simp [sessionsResponse, hknown, Response.addHeader, Response.json, Response.ofBody]
            · intro hunknown
              simp [sessionsResponse, hunknown, unknownInterpreter, Response.addHeader,
                Response.json, Response.ofBody]
          · have hlists : ∀ interpreter, ¬ r.Lists interpreter :=
              fun interpreter hr => hlists ⟨interpreter, hr⟩
            cases (receive_of_other f now hsubmits hremoves).symm.trans h
            exact ⟨none, .other hsubmits hremoves hlists, rfl⟩
  | work h hjob => exact ⟨_, .worked hjob, h⟩

theorem Run.simulates {events : List Event} (hrun : Run f events f') :
    ∃ calls, Simulates f events calls f' := by
  induction hrun with
  | nil => exact ⟨[], .nil⟩
  | snoc _ hstep ih =>
      rcases ih with ⟨calls, hsimulates⟩
      rcases hstep.refines with ⟨call?, hrefines, hperforms⟩
      exact ⟨calls ++ call?.toList, hsimulates.snoc hrefines hperforms⟩

/-- The calls are a run of the library. -/
theorem Simulates.run {events : List Event} {calls : List Flow.Event}
    (h : Simulates f events calls f') : Flow.Run f calls f' := by
  induction h with
  | nil => exact .nil
  | @snoc _ calls g _ call? g' _ _ hperforms ih =>
      cases call? with
      | none =>
          cases hperforms
          simpa using ih
      | some call => exact ih.snoc hperforms

/-- From a service without sessions all states of a server are well-formed. -/
theorem Run.wellFormed {events : List Event} (hf : f.WellFormed) (hrun : Run f events f') :
    f'.WellFormed := by
  rcases hrun.simulates with ⟨calls, hsimulates⟩
  exact hf.run hsimulates.run

/-! ## Responses to submissions -/

/-- What jobs do without anything from outside, they do in a server. -/
theorem Run.of_work {calls : List Flow.Event} (hrun : Flow.Run f calls f')
    (hwork : ∀ call ∈ calls, call.IsWork) :
    Run f (calls.map fun call => .worked call (call.reply?.map replied)) f' := by
  induction hrun with
  | nil => exact .nil
  | @snoc calls g call g' _ hstep ih =>
      have hbefore := ih fun other hother => hwork other (List.mem_append_left _ hother)
      rcases (hwork call (by simp)).exists_number? with ⟨n, hn⟩
      rw [List.map_append]
      exact hbefore.snoc (.work hstep hn)

/-- The client of a job has been told a reply. -/
def Told (events : List Event) (n : Nat) : Prop :=
  ∃ call reply, .worked call (some (replied reply)) ∈ events ∧ call.number? = some n

theorem Told.append {events : List Event} {n : Nat} (h : Told events n) (later : List Event) :
    Told (events ++ later) n := by
  rcases h with ⟨call, reply, hmem, hn⟩
  exact ⟨call, reply, List.mem_append_left _ hmem, hn⟩

/-- A client that has been put off has been told, or waits for a job. -/
theorem Run.told_or_waits {events : List Event} (hf : f.WellFormed) (hrun : Run f events f')
    {n : Nat} (hpending : .received now r (.pending n) ∈ events) :
    Told events n ∨ ∃ job ∈ f'.jobs, job.number = n ∧ job.answered = false := by
  induction hrun with
  | nil => cases hpending
  | @snoc events g event g' hbefore hstep ih =>
      have hg := hbefore.wellFormed hf
      rcases hstep.refines with ⟨call?, hrefines, hperforms⟩
      rcases List.mem_append.mp hpending with hpending | hlast
      · rcases ih hpending with htold | ⟨job, hmem, rfl, hanswered⟩
        · exact .inl (htold.append _)
        · cases hrefines with
          | @worked call m hjob =>
              rcases Flow.Step.reply_or_waits hg hperforms hmem hanswered with
                ⟨hn, reply, hreply⟩ | hwaits
              · exact .inl ⟨call, reply, by simp [hreply], hn⟩
              · exact .inr hwaits
          | listed _ _ _ | other _ _ _ =>
              cases hperforms
              exact .inr ⟨job, hmem, rfl, hanswered⟩
          | submitted _ | refused _ | removed _ _ =>
              -- these are about no job that is there already
              rcases Flow.Step.reply_or_waits hg hperforms hmem hanswered with ⟨hn, _⟩ | hwaits
              · cases hn
              · exact .inr hwaits
      · cases List.mem_singleton.mp hlast
        cases hrefines with
        | submitted hsubmits =>
            cases hperforms with
            | submit hsubmit =>
                rcases Flow.submit_ok hsubmit with ⟨t, _, rfl, rfl⟩
                exact .inr ⟨g.enrolled now t, by simp, rfl, rfl⟩

/-- Without any further request, a client that waits can be told the reply of its job. -/
theorem exists_response (hf : f.WellFormed) {job : Job} (hmem : job ∈ f.jobs)
    (hanswered : job.answered = false) :
    ∃ later f', Run f later f' ∧ Told later job.number ∧
      ∀ event ∈ later, ∃ call response?, event = .worked call response? := by
  rcases Flow.job_ends hf hmem with ⟨calls, f', reply?, hrun, hwork, hended, hreply⟩
  rcases hreply hanswered with ⟨reply, rfl⟩
  refine ⟨_, f', .of_work hrun hwork, ⟨_, reply, List.mem_map.mpr ⟨_, hended, rfl⟩, rfl⟩, ?_⟩
  intro event hevent
  rcases List.mem_map.mp hevent with ⟨call, _, rfl⟩
  exact ⟨call, _, rfl⟩

/-! ## One request at a time -/

/-- Where nothing is under way, `exchange` gives the response that a server gives, at once or when
the job of the request is done, and leaves the same sessions and bindings. -/
theorem exchange_eq_receive (hjobs : f.jobs = []) (now : Instant) (r : Request) :
    match receive f now r with
    | (.answered response, f') => exchange f.service now r = (response, f'.service)
    | (.pending n, f') => ∃ reply, (f'.complete n).2 = some reply ∧
        (exchange f.service now r).1 = replied reply ∧
        (f'.complete n).1.service.store.Alike (exchange f.service now r).2.store := by
  by_cases hsubmits : ∃ s, r.Submits s
  · rcases hsubmits with ⟨s, hsubmits⟩
    rw [receive_of_submits f now hsubmits, exchange_of_submits hsubmits]
    rcases htarget : f.service.catalogue.target? s with _ | t
    · rcases Service.route_of_no_target htarget now with ⟨failure, _, hroute⟩
      simp only [Flow.submit, hroute, Service.answer, Service.dispatch]
    · have hroute := Service.route_of_target htarget now
      let g : Flow :=
        { f with
          service := { f.service with store := (f.service.store.lookup now t.name t.session).1 }
          jobs := f.jobs ++ [f.enrolled now t]
          nextNumber := f.nextNumber + 1 }
      have halone : g.jobs = [f.enrolled now t] := by simp [g, hjobs]
      have hcomplete := Flow.complete_alone halone rfl
      have hsubmit : f.submit now s = (g, .ok f.nextNumber) := by
        simp only [Flow.submit, hroute]
        rfl
      have hreply := g.replyOf_eq_ofOutcome (g.service.evaluation (f.enrolled now t).routed)
      simp only [hsubmit, Service.answer, Service.dispatch, hroute]
      refine ⟨_, congrArg Prod.snd hcomplete, congrArg replied hreply.symm, ?_⟩
      refine (congrArg (fun r => r.1.service.store) hcomplete) ▸ ?_
      exact Store.alike_takeAll _ _ _
  · have hother := receive_of_not_submits f now fun s hs => hsubmits ⟨s, hs⟩
    rw [hother]

/-! ## The library behind the server -/

/-- Whatever requests come in, the states of the server are those of a run of the library, which
makes the call of each request and no other.  Every submission is answered with a status of 200 and
the reply of the library: at once, or with a step of its job, which can always be brought to its
end.  Where no job is under way, that is what `exchange` does in one go. -/
theorem refines_library (settings : Settings) {events : List Event} {f : Flow}
    (hrun : Run { service := .ofSettings settings } events f) :
    (∃ calls, Simulates { service := .ofSettings settings } events calls f ∧
      Flow.Run { service := .ofSettings settings } calls f) ∧
    (∀ now r n, .received now r (.pending n) ∈ events → Told events n ∨
      ∃ later f', Run f later f' ∧ Told later n ∧
        ∀ event ∈ later, ∃ call response?, event = .worked call response?) ∧
    (∀ reply, (replied reply).status = 200 ∧ (replied reply).body = reply.toWire) ∧
    (f.jobs = [] → ∀ now r,
      match receive f now r with
      | (.answered response, f') => exchange f.service now r = (response, f'.service)
      | (.pending n, f') => ∃ reply, (f'.complete n).2 = some reply ∧
          (exchange f.service now r).1 = replied reply ∧
          (f'.complete n).1.service.store.Alike (exchange f.service now r).2.store) := by
  have hstart : ({ service := .ofSettings settings } : Flow).WellFormed := .idle .empty
  refine ⟨?_, ?_, fun _ => ⟨rfl, rfl⟩, exchange_eq_receive⟩
  · rcases hrun.simulates with ⟨calls, hsimulates⟩
    exact ⟨calls, hsimulates, hsimulates.run⟩
  · intro now r n hpending
    rcases hrun.told_or_waits hstart hpending with htold | ⟨job, hmem, rfl, hanswered⟩
    · exact .inl htold
    · exact .inr (exists_response (hrun.wellFormed hstart) hmem hanswered)

/-- The submission of an expression is put off, and its client can be told the reply. -/
theorem refines_library_put_off :
    let start : Flow := { service := .ofSettings {} }
    let events : List Event :=
      [.received 0 (submitting "\x7b\"code\":\"%python 1\"\x7d") (.pending 0)]
    ∃ f, Run start events f ∧
      (∃ calls, Simulates start events calls f ∧ Flow.Run start calls f) ∧
      ∃ later f', Run f later f' ∧ Told later 0 := by
  intro start events
  have hsubmits : (submitting "\x7b\"code\":\"%python 1\"\x7d").Submits ⟨"%python 1", none⟩ :=
    submitting_submits (by decide +kernel)
  have hticket : (start.submit 0 ⟨"%python 1", none⟩).2 = .ok 0 := rfl
  rcases hsubmit : start.submit 0 ⟨"%python 1", none⟩ with ⟨f, ticket⟩
  rw [hsubmit] at hticket
  subst hticket
  have hreceive := receive_of_submits start 0 hsubmits
  rw [hsubmit] at hreceive
  have hrun : Run start events f := .snoc .nil (.receive hreceive)
  rcases refines_library {} hrun with ⟨hsimulates, hresponse, _, _⟩
  refine ⟨f, hrun, hsimulates, ?_⟩
  rcases hresponse 0 _ 0 (List.mem_singleton_self _) with htold | ⟨later, f', hlater, htold, _⟩
  · rcases htold with ⟨call, reply, hmem, _⟩
    simp [events] at hmem
  · exact ⟨later, f', hlater, htold⟩

end Http
end CodeSessions
