import CodeSessions.Proofs.Service.Target

/-!
# Non-interference — what other keys do to the replies of one

A service that takes one event after the other answers the submissions of a key as if there were no
others.

- `Service.Event` is a submission, a removal or a sweep, with the time at which it happens,
- `Service.repliesAt` are the replies to the submissions of one key,
- `Service.Agree` relates two services that one key cannot tell apart: their stores may differ in
  everything but the view of that key,
- `Agree.step` and `Agree.skip` are the two kinds of steps, and `Agree.repliesAt_filter` is the run.
-/

namespace CodeSessions
namespace Service

inductive Event
  | submit (now : Instant) (submission : Submission)
  | remove (interpreter id : String)
  | sweep (now : Instant)

/-- Whether an event is addressed to a key.  Sweeps are addressed to all. -/
def Event.concerns (c : Catalogue) (k : Key) : Event → Bool
  | submit _ submission => c.keyOf? submission = some k
  | remove interpreter id => Key.session interpreter id = k
  | sweep _ => true

/-- Carries an event out to its end.  Between events no environment is in use. -/
def step (s : Service) : Event → Service
  | .submit now submission => (s.answer now submission).2
  | .remove interpreter id => { s with store := (s.store.remove interpreter id).1 }
  | .sweep now => { s with store := (s.store.sweep (fun _ => false) s.retention now).1 }

/-- The reply to an event that is a submission of the key. -/
def reply? (k : Key) (s : Service) : Event → Option Reply
  | .submit now submission =>
      if s.catalogue.keyOf? submission = some k then some (s.answer now submission).1 else none
  | _ => none

/-- The replies to the submissions of a key, in order. -/
def repliesAt (k : Key) (s : Service) : List Event → List Reply
  | [] => []
  | event :: events => (s.reply? k event).toList ++ (s.step event).repliesAt k events

/-! ## Services that a key cannot tell apart -/

structure Agree (c : Catalogue) (k : Key) (s t : Service) : Prop where
  catalogues : s.catalogue = c ∧ t.catalogue = c
  retention : s.retention = t.retention
  placement : s.placement = t.placement
  left : s.store.WellFormed
  right : t.store.WellFormed
  view : s.store.view k = t.store.view k

namespace Agree

variable {c : Catalogue} {k : Key} {s t : Service}

theorem refl (h : s.store.WellFormed) : Agree s.catalogue k s s :=
  ⟨⟨rfl, rfl⟩, rfl, rfl, h, h, rfl⟩

theorem infoAt (h : Agree c k s t) : s.store.infoAt k = t.store.infoAt k :=
  congrArg View.info h.view

theorem bindingsAt (h : Agree c k s t) : s.store.bindingsAt k = t.store.bindingsAt k :=
  congrArg View.bindings h.view

/-- Both services come to the same evaluation for a submission of the key. -/
theorem evaluationOf (h : Agree c k s t) {target : Target} (hkey : target.key = k) :
    s.evaluationOf target = t.evaluationOf target := by
  have hbindings : s.store.bindingsAt target.key = t.store.bindingsAt target.key := by
    simpa [hkey] using h.bindingsAt
  simp only [Service.evaluationOf, hbindings]

/-- The target that a submission of the key has in both services. -/
theorem target (h : Agree c k s t) {submission : Submission}
    (hkey : c.keyOf? submission = some k) :
    ∃ target, target.key = k ∧ s.catalogue.target? submission = some target ∧
      t.catalogue.target? submission = some target := by
  rcases Catalogue.target_of_keyOf? hkey with ⟨target, htarget, hself⟩
  refine ⟨target, hself, ?_, ?_⟩
  · simpa [h.catalogues.1] using htarget
  · simpa [h.catalogues.2] using htarget

/-- Both services reply the same to whatever concerns the key. -/
theorem reply? (h : Agree c k s t) (event : Event) : s.reply? k event = t.reply? k event := by
  cases event with
  | submit now submission =>
      simp only [Service.reply?, h.catalogues.1, h.catalogues.2]
      by_cases hkey : c.keyOf? submission = some k
      · rcases h.target hkey with ⟨target, hself, hs, ht⟩
        simp only [answer_of_target h.left hs, answer_of_target h.right ht, h.evaluationOf hself,
          h.placement]
      · simp only [hkey, if_false]
  | remove interpreter id => rfl
  | sweep now => rfl

/-! ## Steps -/

/-- Taking an event that concerns the key, in both services. -/
theorem step (h : Agree c k s t) {event : Event} (hevent : event.concerns c k = true) :
    Agree c k (s.step event) (t.step event) := by
  cases event with
  | submit now submission =>
      have hkey : c.keyOf? submission = some k := by simpa [Event.concerns] using hevent
      rcases h.target hkey with ⟨target, hself, hs, ht⟩
      -- the same evaluation on the same bindings leaves the same bindings
      have hview : (s.storeAfter now target).view k = (t.storeAfter now target).view k := by
        have hleft := view_storeAfter h.left now target k
        have hright := view_storeAfter h.right now target k
        simp only [hself, if_true] at hleft hright
        simp only [hleft, hright, h.infoAt, h.bindingsAt, h.evaluationOf hself]
      simp only [Service.step, answer_of_target h.left hs, answer_of_target h.right ht]
      exact { h with
        left := wellFormed_storeAfter h.left now target
        right := wellFormed_storeAfter h.right now target
        view := hview }
  | remove interpreter id =>
      have hview : (s.store.remove interpreter id).1.view k =
          (t.store.remove interpreter id).1.view k := by
        simp only [Store.view_remove, h.view]
      exact { h with
        left := h.left.remove interpreter id
        right := h.right.remove interpreter id
        view := hview }
  | sweep now =>
      have hview : (s.store.sweep (fun _ => false) s.retention now).1.view k =
          (t.store.sweep (fun _ => false) t.retention now).1.view k := by
        simp only [Store.view_sweep h.left, Store.view_sweep h.right, h.view, h.retention]
      exact { h with
        left := h.left.sweep _ s.retention now
        right := h.right.sweep _ t.retention now
        view := hview }

/-- Taking an event that does not concern the key, in one service only. -/
theorem skip (h : Agree c k s t) {event : Event} (hevent : event.concerns c k = false) :
    Agree c k (s.step event) t := by
  cases event with
  | submit now submission =>
      have hkey : c.keyOf? submission ≠ some k := by simpa [Event.concerns] using hevent
      -- without a target nothing happens; with one, it happens to another key
      rcases htarget : s.catalogue.target? submission with _ | target
      · have hsame : s.step (.submit now submission) = s := answer_of_no_target htarget now
        simpa [hsame] using h
      · have hother : k ≠ target.key := by
          intro hself
          apply hkey
          simp [Catalogue.keyOf?, ← h.catalogues.1, htarget, hself]
        have hview := view_storeAfter h.left now target k
        simp only [hother, if_false] at hview
        simp only [Service.step, answer_of_target h.left htarget]
        exact { h with
          left := wellFormed_storeAfter h.left now target
          view := hview.trans h.view }
  | remove interpreter id =>
      have hother : k ≠ .session interpreter id := by
        intro hself
        simp [Event.concerns, hself] at hevent
      have hview := Store.view_remove s.store interpreter id k
      simp only [hother, if_false] at hview
      exact { h with
        left := h.left.remove interpreter id
        view := hview.trans h.view }
  | sweep now => cases hevent

/-- An event that does not concern the key has no reply for it. -/
theorem reply?_eq_none (h : Agree c k s t) {event : Event} (hevent : event.concerns c k = false) :
    s.reply? k event = none := by
  cases event with
  | submit now submission =>
      have hkey : c.keyOf? submission ≠ some k := by simpa [Event.concerns] using hevent
      simp [Service.reply?, h.catalogues.1, hkey]
  | remove interpreter id => rfl
  | sweep now => rfl

/-! ## Runs -/

/-- The first service takes all events, the second those that concern the key. -/
theorem repliesAt_filter (h : Agree c k s t) (events : List Event) :
    s.repliesAt k events = t.repliesAt k (events.filter (Event.concerns c k)) := by
  -- by induction on the events, for any two services: they differ more and more, but the key
  -- cannot tell
  induction events generalizing s t with
  | nil => rfl
  | cons event events ih =>
      rcases hevent : event.concerns c k with _ | _
      · have hrest := ih (h.skip hevent)
        have hnone : s.reply? k event = none := h.reply?_eq_none hevent
        simpa [repliesAt, hevent, hnone] using hrest
      · have hrest := ih (h.step hevent)
        have hreply : s.reply? k event = t.reply? k event := h.reply? event
        simp only [List.filter_cons_of_pos hevent, repliesAt, hreply, hrest]

end Agree

/-- Non-interference.  Leaving out everything that is addressed to other keys, or to none, changes
no reply to the submissions of a key. -/
theorem repliesAt_eq_repliesAt_filter {s : Service} (h : s.store.Reachable) (k : Key)
    (events : List Event) :
    s.repliesAt k events = s.repliesAt k (events.filter (Event.concerns s.catalogue k)) :=
  (Agree.refl h.wellFormed).repliesAt_filter events

/-- Two sessions with one id, and a sweep between the submissions. -/
theorem repliesAt_filter_two_sessions :
    let calls : List Store.Call :=
      [.lookup 0 "python" (some "1"), .lookup 1 "jython" (some "1")]
    let s : Service := { store := Store.empty.after calls }
    let events : List Event :=
      [.submit 2 ⟨"%python a = 1", some "1"⟩, .submit 3 ⟨"%jython print a", some "1"⟩,
        .remove "jython" "1", .sweep 4, .submit 5 ⟨"%python print a", some "1"⟩]
    let k : Key := .session "python" "1"
    s.store.Reachable ∧
      s.repliesAt k events = s.repliesAt k (events.filter (Event.concerns s.catalogue k)) := by
  intro calls s events k
  have hreachable : s.store.Reachable := ⟨calls, rfl⟩
  exact ⟨hreachable, repliesAt_eq_repliesAt_filter hreachable k events⟩

end Service
end CodeSessions
