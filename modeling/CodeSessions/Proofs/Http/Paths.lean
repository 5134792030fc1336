import CodeSessions.Http.Route
import CodeSessions.Proofs.Http.Encoding
import Mathlib.Data.List.TakeWhile

/-!
# Paths — the paths of the resources, character by character

The routes are found segment by segment.  Here they are told by the path as it is written:

- `splitOn_eq_iff` and `segments_eq_iff`: segments are what stands between slashes,
- `ofTarget?_eq_execute_iff`, `ofTarget?_eq_sessions_iff`, `ofTarget?_eq_session_iff`: the paths of
  the resources that have to do with sessions,
- `pathOf_cons_slash`: a target that is all path.
-/

namespace CodeSessions

namespace Text

variable {separator : Char} {s : List Char}

theorem splitOn_eq_listSplitOn (separator : Char) (s : List Char) :
    splitOn separator s = List.splitOn separator s := by
  induction s with
  | nil => simp [splitOn]
  | cons c s ih =>
      have hcons : splitOn separator (c :: s) =
          if c = separator then [] :: splitOn separator s
          else consPart c (splitOn separator s) := rfl
      rw [hcons, ih, List.splitOn_cons_eq_if_modifyHead]
      by_cases hc : c = separator
      · simp [hc]
      · rcases hparts : List.splitOn separator s with _ | ⟨part, parts⟩
        · exact absurd hparts (List.splitOn_ne_nil separator s)
        · simp [hc, consPart]

theorem not_mem_of_mem_splitOn {part : List Char} (h : part ∈ splitOn separator s) :
    separator ∉ part := by
  induction s generalizing part with
  | nil =>
      rw [List.mem_singleton.1 h]
      exact List.not_mem_nil
  | cons c s ih =>
      have hcons : splitOn separator (c :: s) =
          if c = separator then [] :: splitOn separator s
          else consPart c (splitOn separator s) := rfl
      rw [hcons] at h
      by_cases hc : c = separator
      · rw [if_pos hc] at h
        rcases List.mem_cons.1 h with rfl | h
        · exact List.not_mem_nil
        · exact ih h
      · rw [if_neg hc] at h
        rcases hparts : splitOn separator s with _ | ⟨first, parts⟩
        · rw [hparts, consPart, List.mem_singleton] at h
          simp [h, Ne.symm hc]
        · rw [hparts, consPart] at h
          rcases List.mem_cons.1 h with rfl | h
          · have hfirst : separator ∉ first := ih (hparts ▸ List.mem_cons_self)
            simp [hfirst, Ne.symm hc]
          · exact ih (hparts ▸ List.mem_cons_of_mem first h)

/-- Parts without separators come from the text in which separators stand between them. -/
theorem splitOn_eq_iff {parts : List (List Char)} :
    splitOn separator s = parts ↔
      parts ≠ [] ∧ (∀ part ∈ parts, separator ∉ part) ∧ s = [separator].intercalate parts := by
  constructor
  · rintro rfl
    refine ⟨?_, fun part hpart => not_mem_of_mem_splitOn hpart, ?_⟩
    · rw [splitOn_eq_listSplitOn]
      exact List.splitOn_ne_nil separator s
    · rw [splitOn_eq_listSplitOn, List.intercalate_splitOn]
  · rintro ⟨hne, hparts, rfl⟩
    rw [splitOn_eq_listSplitOn, List.splitOn_intercalate separator hparts hne]

end Text

namespace Http

/-! ## Segments -/

theorem segments_eq_iff {path : List Char} {parts : List String} :
    segments path = parts ↔
      parts ≠ [] ∧ (∀ part ∈ parts, '/' ∉ part.toList) ∧
        path = ['/'].intercalate (parts.map String.toList) := by
  have hmap : segments path = parts ↔ Text.splitOn '/' path = parts.map String.toList := by
    constructor
    · rintro rfl
      simp [segments]
    · intro h
      simp [segments, h]
  rw [hmap, Text.splitOn_eq_iff]
  simp

/-! ## Resources -/

namespace Route

theorem ofSegments?_eq_execute_iff {parts : List String} :
    ofSegments? parts = some execute ↔ parts = ["", "execute"] := by
  unfold ofSegments?
  constructor
  · intro h
    split at h <;> simp_all
  · rintro rfl
    rfl

theorem ofSegments?_eq_sessions_iff {parts : List String} {interpreter : String} :
    ofSegments? parts = some (sessions interpreter) ↔
      interpreter ≠ "" ∧ parts = ["", "api", "v1", "sessions", interpreter] := by
  unfold ofSegments?
  constructor
  · intro h
    split at h <;> grind [String.isEmpty_iff]
  · rintro ⟨hne, rfl⟩
    simp [hne]

theorem ofSegments?_eq_session_iff {parts : List String} {interpreter id : String} :
    ofSegments? parts = some (session interpreter id) ↔
      id ≠ "" ∧ parts = ["", "api", "v1", "sessions", interpreter, id] := by
  unfold ofSegments?
  constructor
  · intro h
    split at h <;> grind [String.isEmpty_iff]
  · rintro ⟨hne, rfl⟩
    simp [hne]

variable {target : String}

theorem ofTarget?_eq_execute_iff :
    ofTarget? target = some execute ↔ pathOf target.toList = "/execute".toList := by
  rw [ofTarget?, ofSegments?_eq_execute_iff, segments_eq_iff]
  simp [List.intercalate]

theorem ofTarget?_eq_sessions_iff {interpreter : String} :
    ofTarget? target = some (sessions interpreter) ↔
      interpreter ≠ "" ∧ '/' ∉ interpreter.toList ∧
        pathOf target.toList = "/api/v1/sessions/".toList ++ interpreter.toList := by
  rw [ofTarget?, ofSegments?_eq_sessions_iff, segments_eq_iff]
  simp [List.intercalate]

theorem ofTarget?_eq_session_iff {interpreter id : String} :
    ofTarget? target = some (session interpreter id) ↔
      id ≠ "" ∧ '/' ∉ interpreter.toList ∧ '/' ∉ id.toList ∧
        pathOf target.toList =
          "/api/v1/sessions/".toList ++ interpreter.toList ++ '/' :: id.toList := by
  rw [ofTarget?, ofSegments?_eq_session_iff, segments_eq_iff]
  simp [List.intercalate, and_assoc]

end Route

/-! ## Targets -/

/-- A target that starts with a slash and has neither a query nor a fragment is a path. -/
theorem pathOf_cons_slash {s : List Char} (hs : ∀ c ∈ s, c ≠ '?' ∧ c ≠ '#') :
    pathOf ('/' :: s) = '/' :: s := by
  have horigin : dropOrigin ('/' :: s) = '/' :: s := by
    have hslash : isSchemeChar '/' = false := by decide
    simp [dropOrigin, hslash]
  have htake : ('/' :: s).takeWhile (fun c => c != '?' && c != '#') = '/' :: s := by
    refine List.takeWhile_eq_self_iff.2 fun c hc => ?_
    rcases List.mem_cons.1 hc with rfl | hc
    · decide
    · simp [hs c hc]
  rw [pathOf, horigin, htake]

/-- The target of the sessions of an interpreter. -/
def sessionsTarget (interpreter : String) : String :=
  "/api/v1/sessions/" ++ Percent.encode interpreter

/-- The target of a session. -/
def sessionTarget (interpreter id : String) : String :=
  "/api/v1/sessions/" ++ Percent.encode interpreter ++ "/" ++ Percent.encode id

end Http
end CodeSessions
