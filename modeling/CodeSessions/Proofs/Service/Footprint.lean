import CodeSessions.Proofs.Service.Target
import CodeSessions.Proofs.Store.Identity

/-!
# Footprints — what a submission leaves on a store

A submission without a target leaves nothing.  One with a target has its session touched or made,
and its evaluation leaves bindings behind the key; all else stays as it is.

- `Store.Spares` says that two stores differ at the session of one key only,
- `spares_lookup` and `Spares.setBindings` are the two steps of an answer, `spares_storeAfter` is
  the whole of it,
- `storeAfter_of_session` says what becomes of the list with the session of the key,
- `dispatch_footprint` says what is left behind, for all outcomes.
-/

namespace CodeSessions
namespace Store

/-! ## What is spared -/

/-- All but the session of `k` is in `t` what it is in `s`, and where it is. -/
structure Spares (k : Key) (s t : Store) : Prop where
  place : ∀ {interpreter : String} {n : Nat} {session : Session},
    (s.sessions interpreter)[n]? = some session → Key.session interpreter session.id ≠ k →
      (t.sessions interpreter)[n]? = some session
  environmentAt : ∀ {l : Key}, l ≠ k → t.environmentAt l = s.environmentAt l
  bindingsAt : ∀ {l : Key}, l ≠ k → t.bindingsAt l = s.bindingsAt l

variable {s t : Store} {k : Key} {interpreter : String} {session? : Option String}

/-- A session that is not looked up keeps its place: the list may be touched elsewhere, and grow. -/
theorem getElem?_sessions_lookup {n : Nat} {session : Session} (now : Instant) (name : String)
    (hn : (s.sessions interpreter)[n]? = some session)
    (hne : Key.session interpreter session.id ≠ .ofCell name session?) :
    ((s.lookup now name session?).1.sessions interpreter)[n]? = some session := by
  rcases lookup_cases s now name session? with
    ⟨_, hs⟩ | ⟨id, _, _, hkey, _, hs⟩ | ⟨id, _, hkey, _, hs⟩
  · simpa only [hs] using hn
  · rw [hs, sessions_touch]
    split
    · rename_i hname
      subst hname
      have hid : session.id ≠ id := fun hid => hne (by rw [hkey, hid])
      simp [hn, Session.touch_of_ne hid]
    · exact hn
  · rw [hs, sessions_create]
    split
    · rename_i hname
      subst hname
      rw [List.getElem?_append_left (List.getElem?_eq_some_iff.1 hn).1]
      exact hn
    · exact hn

theorem lookup_of_sessionless (h : Sessionless session?) (now : Instant) (name : String) :
    s.lookup now name session? = (s, sharedEnvironment) := by
  rcases h with rfl | rfl <;> rfl

theorem spares_lookup (s : Store) (now : Instant) (name : String) (session? : Option String) :
    Spares (.ofCell name session?) s (s.lookup now name session?).1 where
  place := getElem?_sessions_lookup now name
  environmentAt := fun hne => environmentAt_lookup_of_ne hne now
  bindingsAt := fun hne =>
    bindingsAt_congr (sessionAt_lookup_of_ne hne now) (bindings_lookup s now name session?)

/-- A write to the environment of the key spares the others as well. -/
theorem Spares.setBindings (h : Spares k s t) (ht : t.WellFormed) {e : EnvironmentId}
    (he : t.environmentAt k = some e) (env : Bindings) : Spares k s (t.setBindings e env) where
  place := h.place
  environmentAt := fun hne => (environmentAt_setBindings t e env _).trans (h.environmentAt hne)
  bindingsAt := by
    intro l hne
    have hview := view_write ht he env l
    rw [if_neg hne] at hview
    exact (congrArg View.bindings hview).trans (h.bindingsAt hne)

end Store

namespace Service

variable {s : Service} {submission : Submission} {t : Target}

theorem spares_storeAfter (h : s.store.WellFormed) (now : Instant) (t : Target) :
    Store.Spares t.key s.store (s.storeAfter now t) :=
  (Store.spares_lookup s.store now t.name t.session).setBindings (h.lookup now t.name t.session)
    (Store.environmentAt_lookup_self s.store now t.name t.session) _

/-- The transcript starts empty. -/
theorem mapError_outcome (e : Evaluation) :
    (e.fault = none → e.outcome.mapError Failure.fault =
      .ok (e.effects.foldl Effect.onTranscript .empty).text) ∧
    ∀ message, e.fault = some message →
      e.outcome.mapError Failure.fault = .error (.fault message) := by
  constructor
  · intro hnone
    rw [Evaluation.outcome, hnone]
    rfl
  · intro message hsome
    rw [Evaluation.outcome, hsome]
    rfl

theorem dispatch_of_no_target (h : s.catalogue.target? submission = none) (now : Instant) :
    ((s.dispatch now submission).1 = .error .noCell ∨
      ∃ name, (s.dispatch now submission).1 = .error (.unknownInterpreter name)) ∧
    (s.dispatch now submission).2 = s := by
  obtain ⟨failure, hfailure, hroute⟩ := route_of_no_target h now
  simp only [dispatch, hroute, and_true]
  rcases hfailure with rfl | ⟨name, rfl⟩
  · exact .inl rfl
  · exact .inr ⟨name, rfl⟩

/-- A submission with a target is evaluated, and neither of the early failures comes of it. -/
theorem dispatch_not_refused (h : s.store.WellFormed)
    (ht : s.catalogue.target? submission = some t) (now : Instant) :
    ¬((s.dispatch now submission).1 = .error .noCell ∨
      ∃ name, (s.dispatch now submission).1 = .error (.unknownInterpreter name)) := by
  rw [dispatch_of_target h ht]
  cases (s.evaluationOf t).outcome with
  | ok output =>
      rintro (hrefused | ⟨name, hrefused⟩) <;> cases hrefused
  | error message =>
      rintro (hrefused | ⟨name, hrefused⟩) <;> cases hrefused

/-- A target with a session leaves the shared bindings alone, and finds its session or gets it at
the end of the list. -/
theorem storeAfter_of_session (h : s.store.WellFormed) (now : Instant) (t : Target) {id : String}
    (hid : t.session = some id) (hne : id ≠ "") :
    (s.storeAfter now t).bindings Store.sharedEnvironment =
      s.store.bindings Store.sharedEnvironment ∧
    (s.store.find? t.name id ≠ none → (s.storeAfter now t).sessions t.name =
      (s.store.sessions t.name).map (Session.touch now id)) ∧
    (s.store.find? t.name id = none → ∃ e, (∀ k, s.store.environmentAt k ≠ some e) ∧
      (s.storeAfter now t).sessions t.name = s.store.sessions t.name ++
        [{ id, createdAt := now, lastUsedAt := now, environment := e }]) := by
  have hkey : Key.shared ≠ t.key := by
    rw [Target.key, hid, Key.ofCell_eq_session_iff.2 ⟨rfl, rfl, hne⟩]
    intro hshared
    cases hshared
  refine ⟨(spares_storeAfter h now t).bindingsAt hkey, ?_, ?_⟩
  · intro hlive
    obtain ⟨found, hfound⟩ := Option.ne_none_iff_exists'.1 hlive
    have hlookup := Store.sessions_lookup_of_found hne hfound now
    rwa [← hid] at hlookup
  · intro habsent
    have hlookup := Store.sessions_lookup_of_absent hne habsent now
    rw [← hid] at hlookup
    have hfresh : ∀ k, s.store.environmentAt k ≠ some s.store.nextEnvironment :=
      fun k hk => Nat.lt_irrefl _ (h.made hk)
    exact ⟨s.store.nextEnvironment, hfresh, hlookup⟩

/-- A submission that is refused early leaves the service as it was.  Any other one goes to a known
interpreter.  It touches or makes its session, if it has one, and leaves there what its evaluation
makes of the bindings, also after a fault; everything else is spared. -/
theorem dispatch_footprint {s : Service} (h : s.store.Reachable) (now : Instant)
    (submission : Submission) :
    let outcome := (s.dispatch now submission).1
    let after := (s.dispatch now submission).2
    let refused := outcome = .error .noCell ∨ ∃ name, outcome = .error (.unknownInterpreter name)
    (refused → after = s) ∧
    (¬ refused → ∃ cell interpreter, Cell.ofText? submission.code = some cell ∧
      s.catalogue.find? cell.interpreter = some interpreter ∧
      let name := cell.interpreter
      let key := Key.ofCell name submission.sessionId
      let evaluation := interpreter cell.body (s.store.bindingsAt key)
      after = { s with store := after.store } ∧ Store.Spares key s.store after.store ∧
      (∀ other, name ≠ other → after.store.sessions other = s.store.sessions other) ∧
      (Sessionless submission.sessionId →
        after.store.sessions name = s.store.sessions name) ∧
      (∀ id, submission.sessionId = some id → id ≠ "" →
        after.store.bindings Store.sharedEnvironment = s.store.bindings Store.sharedEnvironment ∧
        (s.store.find? name id ≠ none → after.store.sessions name =
          (s.store.sessions name).map (Session.touch now id)) ∧
        (s.store.find? name id = none → ∃ e, (∀ k, s.store.environmentAt k ≠ some e) ∧
          after.store.sessions name = s.store.sessions name ++
            [{ id, createdAt := now, lastUsedAt := now, environment := e }])) ∧
      after.store.bindingsAt key =
        evaluation.effects.foldl Effect.onBindings (s.store.bindingsAt key) ∧
      (evaluation.fault = none →
        outcome = .ok (evaluation.effects.foldl Effect.onTranscript .empty).text) ∧
      ∀ message, evaluation.fault = some message → outcome = .error (.fault message)) := by
  intro outcome after refused
  have hs : s.store.WellFormed := h.wellFormed
  rcases htarget : s.catalogue.target? submission with _ | t
  · obtain ⟨hrefused, hstays⟩ := dispatch_of_no_target htarget now
    exact ⟨fun _ => hstays, fun hnot => absurd hrefused hnot⟩
  · obtain ⟨name, interpreter, body, session⟩ := t
    obtain ⟨hcell, hfind, rfl⟩ := Catalogue.target?_eq_some_iff.1 htarget
    have hdispatch := dispatch_of_target hs htarget now
    have hafter : after = { s with store := s.storeAfter now _ } := congrArg Prod.snd hdispatch
    have houtcome : outcome = _ := congrArg Prod.fst hdispatch
    have hspares := spares_storeAfter hs now ⟨name, interpreter, body, submission.sessionId⟩
    refine ⟨fun hrefused => absurd hrefused (dispatch_not_refused hs htarget now),
      fun _ => ⟨⟨name, body⟩, interpreter, hcell, hfind, ?_⟩⟩
    rw [hafter, houtcome]
    refine ⟨rfl, hspares, ?_, ?_, ?_, ?_, mapError_outcome _⟩
    · intro other hne
      exact Store.sessions_lookup_of_ne s.store now submission.sessionId hne
    · intro hsessionless
      have hlookup := Store.lookup_of_sessionless (s := s.store) hsessionless now name
      exact congrArg (fun r => r.1.sessions name) hlookup
    · intro id hid hne
      exact storeAfter_of_session hs now ⟨name, interpreter, body, submission.sessionId⟩ hid hne
    · have hbindings := bindingsAt_storeAfter hs now
        ⟨name, interpreter, body, submission.sessionId⟩ (.ofCell name submission.sessionId)
      exact hbindings.trans (if_pos rfl)

/-- A second session is made, and keeps what was bound before the fault. -/
theorem dispatch_footprint_faulting :
    let faulty : Interpreter := fun body _ => ⟨[.bind "last" (.text body)], some "boom"⟩
    let s : Service :=
      { catalogue := Catalogue.empty.register ["m"] faulty
        store := Store.empty.after [.lookup 0 "m" (some "1")] }
    let submission : Submission := ⟨"%m x", some "2"⟩
    let after := (s.dispatch 5 submission).2
    s.store.Reachable ∧ (s.dispatch 5 submission).1 = .error (.fault "boom") ∧
      Store.Spares (.session "m" "2") s.store after.store ∧
      (∃ e, after.store.sessions "m" = s.store.sessions "m" ++
        [{ id := "2", createdAt := 5, lastUsedAt := 5, environment := e }]) ∧
      after.store.bindingsAt (.session "m" "2") = Table.empty.set "last" (.text "x") := by
  intro faulty s submission after
  have hreachable : s.store.Reachable := ⟨_, rfl⟩
  have hcell : Cell.ofText? submission.code = some ⟨"m", "x"⟩ := by decide
  have hfind : s.catalogue.find? "m" = some faulty := rfl
  have houtcome : (s.dispatch 5 submission).1 = .error (.fault "boom") := by
    simp only [dispatch, route, hcell, hfind]
    rfl
  have hfootprint := (dispatch_footprint hreachable 5 submission).2 (by simp [houtcome])
  obtain ⟨cell, interpreter, hcell', hfind', -, hspares, -, -, hsession, hbindings, -⟩ := hfootprint
  cases hcell.symm.trans hcell'
  cases hfind.symm.trans hfind'
  obtain ⟨-, -, hnew⟩ := hsession "2" rfl (by decide)
  obtain ⟨e, -, hsessions⟩ := hnew rfl
  exact ⟨hreachable, houtcome, hspares, ⟨e, hsessions⟩, hbindings⟩

end Service
end CodeSessions
