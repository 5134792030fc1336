import CodeSessions.Cell
import Mathlib.Data.List.TakeWhile

/-!
# Decompositions — how a text falls into the parts of a cell

What makes a text a cell is said here without reading it from left to right.

- `Cell.Decomposes` are the parts of a text: a percent sign, a name, a separator and the rest,
- `Cell.FirstLine` and `Cell.IsBody` say which part of the rest is the body,
- `ofChars?_eq_some_iff`: a text is read as a cell exactly if it has these parts,
- `unique_decomposition` puts this together, with the way back from the parts to the text.
-/

namespace CodeSessions
namespace Cell

/-! ## Parts -/

/-- The characters that end the name of a cell. -/
def separators : List Char :=
  [' ', '\t', '\n', '\x0B', '\x0C', '\r']

/-- The name has no separator in it, so it ends at the first. -/
structure Decomposes (text name : List Char) (separator : Char) (rest : List Char) : Prop where
  text_eq : text = '%' :: (name ++ separator :: rest)
  named : name ≠ []
  unbroken : ∀ c ∈ name, c ∉ separators
  separated : separator ∈ separators

inductive FirstLine (line : List Char) : List Char → Prop
  | all : '\n' ∉ line → FirstLine line line
  | before (behind : List Char) : '\n' ∉ line → FirstLine line (line ++ '\n' :: behind)

/-- A line without the carriage return at its end, if there is one. -/
inductive IsBody (body : List Char) : List Char → Prop
  | line : body.getLast? ≠ some '\r' → IsBody body body
  | cut : IsBody body (body ++ ['\r'])

/-! ## Bodies -/

theorem firstLine_iff {line rest : List Char} :
    FirstLine line rest ↔ rest.takeWhile (· != '\n') = line := by
  constructor
  · rintro (hline | ⟨behind, hline⟩)
    · refine List.takeWhile_eq_self_iff.2 fun c hc => ?_
      simpa using ne_of_mem_of_not_mem hc hline
    · rw [List.takeWhile_append_of_pos fun c hc => by simpa using ne_of_mem_of_not_mem hc hline]
      simp
  · rintro rfl
    have hline : '\n' ∉ rest.takeWhile (· != '\n') :=
      fun hmem => by simpa using List.mem_takeWhile_imp hmem
    have hsplit := List.takeWhile_append_dropWhile (p := (· != '\n')) (l := rest)
    rcases hbehind : rest.dropWhile (· != '\n') with _ | ⟨c, behind⟩
    · rw [hbehind, List.append_nil] at hsplit
      have hall := FirstLine.all hline
      rwa [hsplit] at hall ⊢
    · -- what stops the line is a line feed
      have hc : c = '\n' := by
        have hstop := List.head?_dropWhile_not (· != '\n') rest
        simpa [hbehind] using hstop
      subst hc
      have hpart := FirstLine.before behind hline
      rwa [← hbehind, hsplit] at hpart

theorem isBody_iff {body line : List Char} :
    IsBody body line ↔
      (if line.getLast? = some '\r' then line.dropLast else line) = body := by
  constructor
  · rintro (hbody | _)
    · rw [if_neg hbody]
    · simp
  · rintro rfl
    split
    · rename_i hlast
      obtain ⟨front, rfl⟩ := List.getLast?_eq_some_iff.1 hlast
      simpa using IsBody.cut
    · rename_i hlast
      exact .line hlast

theorem bodyOf_eq_iff {rest body : List Char} :
    bodyOf rest = body ↔ ∃ line, FirstLine line rest ∧ IsBody body line := by
  simp only [firstLine_iff, isBody_iff, bodyOf, exists_eq_left']

/-! ## Names -/

theorem isAsciiBlank_iff {c : Char} : Text.isAsciiBlank c = true ↔ c ∈ separators := by
  have hcode (d : Char) : c = d ↔ c.toNat = d.toNat := Char.toNat_inj.symm
  simp only [Text.isAsciiBlank, separators, List.mem_cons, List.not_mem_nil, or_false,
    Bool.or_eq_true, Bool.and_eq_true, beq_iff_eq, decide_eq_true_eq, hcode]
  have hspace : ' '.toNat = 32 ∧ '\t'.toNat = 9 ∧ '\n'.toNat = 10 ∧ '\x0B'.toNat = 11 ∧
      '\x0C'.toNat = 12 ∧ '\r'.toNat = 13 := by decide
  omega

section Parts

variable {text name other rest rest' : List Char} {separator separator' : Char}

theorem Decomposes.not_blank (h : Decomposes text name separator rest) :
    ∀ c ∈ name, (!Text.isAsciiBlank c) = true := by
  intro c hc
  have hnot : ¬Text.isAsciiBlank c = true := fun hblank =>
    h.unbroken c hc (isAsciiBlank_iff.1 hblank)
  simpa using hnot

theorem Decomposes.takeWhile_eq (h : Decomposes text name separator rest) :
    (name ++ separator :: rest).takeWhile (fun c => !Text.isAsciiBlank c) = name := by
  have hstop : Text.isAsciiBlank separator = true := isAsciiBlank_iff.2 h.separated
  rw [List.takeWhile_append_of_pos h.not_blank, List.takeWhile_cons_of_neg (by simp [hstop]),
    List.append_nil]

theorem Decomposes.dropWhile_eq (h : Decomposes text name separator rest) :
    (name ++ separator :: rest).dropWhile (fun c => !Text.isAsciiBlank c) = separator :: rest := by
  have hstop : Text.isAsciiBlank separator = true := isAsciiBlank_iff.2 h.separated
  rw [List.dropWhile_append_of_pos h.not_blank, List.dropWhile_cons_of_neg (by simp [hstop])]

/-- The parts of a text are determined by it. -/
theorem Decomposes.unique (h : Decomposes text name separator rest)
    (h' : Decomposes text other separator' rest') :
    other = name ∧ separator' = separator ∧ rest' = rest := by
  have htail : other ++ separator' :: rest' = name ++ separator :: rest :=
    (List.cons.inj (h'.text_eq.symm.trans h.text_eq)).2
  have hname : other = name := by rw [← h'.takeWhile_eq, htail, h.takeWhile_eq]
  have hrest : separator' :: rest' = separator :: rest := by
    rw [← h'.dropWhile_eq, htail, h.dropWhile_eq]
  exact ⟨hname, List.cons.inj hrest⟩

theorem Decomposes.ofChars?_eq (h : Decomposes text name separator rest) :
    ofChars? text = some ⟨String.ofList name, String.ofList (bodyOf rest)⟩ := by
  rw [h.text_eq]
  simp only [ofChars?, h.takeWhile_eq, h.dropWhile_eq]
  rw [if_neg (by simpa using h.named)]

theorem decomposes_takeWhile {chars : List Char}
    (hnamed : chars.takeWhile (fun c => !Text.isAsciiBlank c) ≠ [])
    (hrest : chars.dropWhile (fun c => !Text.isAsciiBlank c) = separator :: rest) :
    Decomposes ('%' :: chars) (chars.takeWhile fun c => !Text.isAsciiBlank c) separator rest where
  text_eq := by rw [← hrest, List.takeWhile_append_dropWhile]
  named := hnamed
  unbroken c hc := by
    have hpass := List.mem_takeWhile_imp hc
    rw [← isAsciiBlank_iff]
    simpa using hpass
  separated := by
    -- the separator is what ended the run
    have hstop := List.head?_dropWhile_not (fun c => !Text.isAsciiBlank c) chars
    rw [← isAsciiBlank_iff]
    simpa [hrest] using hstop

/-- A text is read as a cell exactly if it has parts. -/
theorem ofChars?_eq_some_iff {cell : Cell} :
    ofChars? text = some cell ↔ ∃ name separator rest, Decomposes text name separator rest ∧
      cell = ⟨String.ofList name, String.ofList (bodyOf rest)⟩ := by
  constructor
  · intro hread
    unfold ofChars? at hread
    split at hread
    · rename_i chars
      split at hread
      · contradiction
      · rename_i separator rest hrest
        dsimp only at hread
        split at hread
        · contradiction
        · rename_i hnamed
          exact ⟨_, separator, rest, decomposes_takeWhile (by simpa using hnamed) hrest,
            (Option.some.inj hread).symm⟩
    · contradiction
  · rintro ⟨name, separator, rest, hparts, rfl⟩
    exact hparts.ofChars?_eq

end Parts

/-! ## Texts and their cells -/

theorem not_mem_bodyOf (rest : List Char) : '\n' ∉ bodyOf rest := by
  obtain ⟨line, hline, hbody⟩ := bodyOf_eq_iff.1 (Eq.refl (bodyOf rest))
  have hfree : '\n' ∉ line := by
    cases hline <;> assumption
  cases hbody with
  | line _ => exact hfree
  | cut => exact fun hmem => hfree (List.mem_append_left _ hmem)

/-- What ends a body: the end of the text, or a line break before any further text. -/
inductive Ending : String → Prop
  | none : Ending ""
  | lineFeed (further : String) : Ending ("\n" ++ further)
  | carriageReturn (further : String) : Ending ("\r\n" ++ further)

theorem bodyOf_append {body ending : String} (hline : '\n' ∉ body.toList)
    (hend : body.toList.getLast? ≠ some '\r') (hending : Ending ending) :
    bodyOf (body.toList ++ ending.toList) = body.toList := by
  rw [bodyOf_eq_iff]
  cases hending with
  | none => exact ⟨body.toList, by simpa using FirstLine.all hline, .line hend⟩
  | lineFeed further =>
    exact ⟨body.toList, by simpa using FirstLine.before further.toList hline, .line hend⟩
  | carriageReturn further =>
    have hcut : '\n' ∉ body.toList ++ ['\r'] := by simp [hline]
    exact ⟨body.toList ++ ['\r'], by simpa using FirstLine.before further.toList hcut, .cut⟩

/-- A text is read as a cell exactly if it has parts; they are unique, the interpreter is the name
and the body the first line of the rest without a carriage return at its end.  Every name, separator
and body of one line come back from the text they are put together to. -/
theorem unique_decomposition :
    (∀ text : String,
      ((ofText? text).isSome ↔
        ∃ name separator rest, Decomposes text.toList name separator rest) ∧
      (∀ name separator rest, Decomposes text.toList name separator rest →
        (∀ name' separator' rest', Decomposes text.toList name' separator' rest' →
          name' = name ∧ separator' = separator ∧ rest' = rest) ∧
        ∀ cell, ofText? text = some cell ↔
          cell.interpreter.toList = name ∧
            ∃ line, FirstLine line rest ∧ IsBody cell.body.toList line) ∧
      ∀ cell, ofText? text = some cell → '\n' ∉ cell.body.toList) ∧
    ∀ (name body ending : String) (separator : Char), name ≠ "" →
      (∀ c ∈ name.toList, c ∉ separators) → separator ∈ separators →
      '\n' ∉ body.toList → body.toList.getLast? ≠ some '\r' → Ending ending →
      ofText? ("%" ++ name ++ separator.toString ++ body ++ ending) = some ⟨name, body⟩ := by
  refine ⟨fun text => ⟨⟨?_, ?_⟩, ?_, ?_⟩, ?_⟩
  · intro hsome
    obtain ⟨cell, hcell⟩ := Option.isSome_iff_exists.1 hsome
    obtain ⟨name, separator, rest, hparts, -⟩ := ofChars?_eq_some_iff.1 hcell
    exact ⟨name, separator, rest, hparts⟩
  · rintro ⟨name, separator, rest, hparts⟩
    exact Option.isSome_iff_exists.2 ⟨_, hparts.ofChars?_eq⟩
  · intro name separator rest hparts
    refine ⟨fun _ _ _ hother => hparts.unique hother, fun cell => ?_⟩
    rw [← bodyOf_eq_iff, ofText?, hparts.ofChars?_eq]
    constructor
    · intro hcell
      obtain rfl := Option.some.inj hcell
      simp
    · rintro ⟨rfl, hbody⟩
      simp [hbody]
  · intro cell hcell
    obtain ⟨name, separator, rest, -, rfl⟩ := ofChars?_eq_some_iff.1 hcell
    simpa using not_mem_bodyOf rest
  · intro name body ending separator hnamed hunbroken hseparator hline hend hending
    have hparts : Decomposes ("%" ++ name ++ separator.toString ++ body ++ ending).toList
        name.toList separator (body.toList ++ ending.toList) :=
      ⟨by simp, by simpa using hnamed, hunbroken, hseparator⟩
    rw [ofText?, hparts.ofChars?_eq, bodyOf_append hline hend hending]
    simp

theorem unique_decomposition_spaced :
    ofText? "%py\u00a0\tx\r\n%b c" = some ⟨"py\u00a0", "x"⟩ := by
  have hunbroken : ∀ c ∈ "py\u00a0".toList, c ∉ separators := by simp [separators]
  have hback := unique_decomposition.2 "py\u00a0" "x" "\r\n%b c" '\t' (by decide) hunbroken
    (by decide) (by decide) (by decide) (.carriageReturn "%b c")
  exact hback

end Cell
end CodeSessions
