import CodeSessions.Proofs.Store.View
import CodeSessions.Service.Basic

/-!
# Targets — what a submission comes to

A submission that is a cell of a known interpreter has a target: the interpreter, the code, and the
session, which give it a key.  All that an answer does to a store is an evaluation on the bindings
behind that key.

- `Catalogue.target?` finds the target, and `Catalogue.keyOf?` its key,
- `route_of_target` and `route_of_no_target` unfold the way of a submission through a service,
- `answer_of_target` is the reply, and `view_storeAfter` is what every key sees of it.
-/

namespace CodeSessions

structure Target where
  /-- The name under which the cell asks for its interpreter. -/
  name : String
  interpreter : Interpreter
  body : String
  /-- The session id as it was sent. -/
  session : Option String

namespace Target

/-- Cells without a session have one key in common, whatever interpreter they name. -/
def key (t : Target) : Key :=
  .ofCell t.name t.session

/-- The evaluation of the target on given bindings. -/
def evaluation (t : Target) (env : Bindings) : Evaluation :=
  t.interpreter t.body env

end Target

/-- What a submission asks for, if it is a cell of an interpreter in the catalogue. -/
def Catalogue.target? (c : Catalogue) (submission : Submission) : Option Target :=
  match Cell.ofText? submission.code with
  | none => none
  | some cell =>
      (c.find? cell.interpreter).map fun interpreter =>
        { name := cell.interpreter, interpreter, body := cell.body,
          session := submission.sessionId }

/-- The key of a submission that has a target. -/
def Catalogue.keyOf? (c : Catalogue) (submission : Submission) : Option Key :=
  (c.target? submission).map Target.key

theorem Catalogue.target_of_keyOf? {c : Catalogue} {submission : Submission} {k : Key}
    (hkey : c.keyOf? submission = some k) :
    ∃ target, c.target? submission = some target ∧ target.key = k := by
  rcases htarget : c.target? submission with _ | target
  · simp [keyOf?, htarget] at hkey
  · exact ⟨target, rfl, by simpa [keyOf?, htarget] using hkey⟩

/-- A target is read off the cell, the catalogue and the session id. -/
theorem Catalogue.target?_eq_some_iff {c : Catalogue} {submission : Submission} {t : Target} :
    c.target? submission = some t ↔
      Cell.ofText? submission.code = some ⟨t.name, t.body⟩ ∧ c.find? t.name = some t.interpreter ∧
        submission.sessionId = t.session := by
  constructor
  · intro h
    rcases hcell : Cell.ofText? submission.code with _ | cell
    · simp [target?, hcell] at h
    · rcases hfind : c.find? cell.interpreter with _ | interpreter
      · simp [target?, hcell, hfind] at h
      · have ht : Target.mk cell.interpreter interpreter cell.body submission.sessionId = t := by
          simpa [target?, hcell, hfind] using h
        subst ht
        exact ⟨rfl, hfind, rfl⟩
  · rintro ⟨hcell, hfind, hsession⟩
    simp [target?, hcell, hfind, hsession]

/-- Looking up an empty id is looking up none. -/
theorem Store.lookup_filter (s : Store) (now : Instant) (interpreter : String)
    (session : Option String) :
    s.lookup now interpreter (session.filter fun id => !id.isEmpty) =
      s.lookup now interpreter session := by
  cases session with
  | none => rfl
  | some id => by_cases hid : id.isEmpty = true <;> simp [Option.filter, Store.lookup, hid]

/-- A target finds the environment behind its key, or else a new one. -/
theorem Store.lookup_target (s : Store) (now : Instant) (t : Target) :
    (s.lookup now t.name t.session).2 = (s.environmentAt t.key).getD s.nextEnvironment :=
  lookup_environment s now t.name t.session

namespace Service

variable {s : Service} {submission : Submission} {t : Target}

/-! ## Routing -/

theorem route_of_target (h : s.catalogue.target? submission = some t) (now : Instant) :
    s.route now submission =
      .ok ({ interpreter := t.interpreter, body := t.body,
             environment := (s.store.lookup now t.name t.session).2 },
           { s with store := (s.store.lookup now t.name t.session).1 }) := by
  rcases Catalogue.target?_eq_some_iff.mp h with ⟨hcell, hfind, hsession⟩
  -- the way through the service drops an empty id, which is as good as none
  have hlookup := Store.lookup_filter s.store now t.name t.session
  simp only [route, hcell, Submission.session?, hfind, hsession, hlookup]

/-- A submission without a target is answered with a failure that does not depend on the store: it
is no cell, or nobody knows its interpreter. -/
theorem route_of_no_target (h : s.catalogue.target? submission = none) (now : Instant) :
    ∃ failure, (failure = .noCell ∨ ∃ name, failure = .unknownInterpreter name) ∧
      s.route now submission = .error failure := by
  rcases hcell : Cell.ofText? submission.code with _ | cell
  · exact ⟨.noCell, .inl rfl, by simp only [route, hcell]⟩
  · rcases hfind : s.catalogue.find? cell.interpreter with _ | interpreter
    · exact ⟨.unknownInterpreter cell.interpreter, .inr ⟨_, rfl⟩, by
        simp only [route, hcell, hfind]⟩
    · simp [Catalogue.target?, hcell, hfind] at h

/-! ## Answering -/

/-- The evaluation that a submission leads to. -/
def evaluationOf (s : Service) (t : Target) : Evaluation :=
  t.evaluation (s.store.bindingsAt t.key)

/-- The store after an answer. -/
def storeAfter (s : Service) (now : Instant) (t : Target) : Store :=
  let (store, e) := s.store.lookup now t.name t.session
  store.setBindings e ((s.evaluationOf t).bindings (s.store.bindingsAt t.key))

/-- Whether it was there before or not, an environment that has just been looked up has the bindings
of its key. -/
theorem bindings_lookup_environment (h : s.store.WellFormed) (now : Instant) (t : Target) :
    s.store.bindings (s.store.lookup now t.name t.session).2 = s.store.bindingsAt t.key := by
  rcases hold : s.store.environmentAt t.key with _ | e
  · have hblank := h.blank (Nat.le_refl s.store.nextEnvironment)
    simpa only [Store.lookup_target, Store.bindingsAt, hold, Option.getD_none] using hblank
  · simp only [Store.lookup_target, Store.bindingsAt, hold, Option.getD_some]

/-- One evaluation is made on the bindings behind the key, and its bindings are left there, also
after a fault. -/
theorem dispatch_of_target (h : s.store.WellFormed) (ht : s.catalogue.target? submission = some t)
    (now : Instant) :
    s.dispatch now submission =
      ((s.evaluationOf t).outcome.mapError .fault, { s with store := s.storeAfter now t }) := by
  have hbindings := bindings_lookup_environment h now t
  have hlookup := Store.bindings_lookup s.store now t.name t.session
  simp only [dispatch, route_of_target ht, evaluation, record, hlookup, hbindings]
  rfl

/-- An answer words the outcome of that evaluation. -/
theorem answer_of_target (h : s.store.WellFormed) (ht : s.catalogue.target? submission = some t)
    (now : Instant) :
    s.answer now submission =
      (Reply.ofOutcome s.placement ((s.evaluationOf t).outcome.mapError .fault),
        { s with store := s.storeAfter now t }) := by
  simp only [answer, dispatch_of_target h ht]

theorem answer_of_no_target (h : s.catalogue.target? submission = none) (now : Instant) :
    (s.answer now submission).2 = s := by
  rcases route_of_no_target h now with ⟨failure, _, hroute⟩
  simp [answer, dispatch, hroute]

theorem wellFormed_storeAfter (h : s.store.WellFormed) (now : Instant) (t : Target) :
    (s.storeAfter now t).WellFormed := by
  have hlookup := h.lookup now t.name t.session
  have hnow : (s.store.lookup now t.name t.session).1.environmentAt t.key =
      some (s.store.lookup now t.name t.session).2 :=
    Store.environmentAt_lookup_self s.store now t.name t.session
  exact hlookup.setBindings (hlookup.made hnow) _

/-- The key of the target sees a use and the new bindings; no other key sees anything. -/
theorem view_storeAfter (h : s.store.WellFormed) (now : Instant) (t : Target) (k : Key) :
    (s.storeAfter now t).view k =
      if k = t.key then
        { info := View.usedInfo now k (s.store.infoAt k)
          bindings := (s.evaluationOf t).bindings (s.store.bindingsAt k) }
      else s.store.view k := by
  have hlookup := h.lookup now t.name t.session
  -- the write goes to the environment that is behind the key by then
  have hnow : (s.store.lookup now t.name t.session).1.environmentAt t.key =
      some (s.store.lookup now t.name t.session).2 :=
    Store.environmentAt_lookup_self s.store now t.name t.session
  have hwrite := Store.view_write hlookup hnow
    ((s.evaluationOf t).bindings (s.store.bindingsAt t.key)) k
  have hview := Store.view_lookup h now t.name t.session k
  by_cases hself : k = t.key
  · subst hself
    simp only [Target.key, if_true] at hview
    simp only [if_true] at hwrite ⊢
    refine hwrite.trans ?_
    simp only [Target.key, hview]
  · have hother : k ≠ .ofCell t.name t.session := hself
    simp only [hself, if_false] at hwrite ⊢
    simp only [hother, if_false] at hview
    exact hwrite.trans hview

theorem bindingsAt_storeAfter (h : s.store.WellFormed) (now : Instant) (t : Target) (k : Key) :
    (s.storeAfter now t).bindingsAt k =
      if k = t.key then (s.evaluationOf t).bindings (s.store.bindingsAt k)
      else s.store.bindingsAt k := by
  have hview := congrArg View.bindings (view_storeAfter h now t k)
  refine hview.trans ?_
  split <;> rfl

end Service
end CodeSessions
