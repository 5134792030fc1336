import CodeSessions.Proofs.Cell.Decomposition

/-!
# Further lines — what the lines after the first do to a cell

The body of a cell ends with its line, so that further lines are not read.  A line feed is a
separator, though: where the first line is a name and nothing else, the line feed behind it makes a
cell of the text, and the body of this cell is the second line.

- `Decomposes.append` and `Decomposes.of_append`: the parts of a text are those of its first line,
  unless that line is bare,
- `further_lines`: further lines change nothing but behind a bare line,
- `further_lines_not_ignored`: the second line can be the one that is run.
-/

namespace CodeSessions
namespace Cell

/-- A percent sign and a name, without a separator behind it. -/
structure IsBare (text name : List Char) : Prop where
  text_eq : text = '%' :: name
  named : name ≠ []
  unbroken : ∀ c ∈ name, c ∉ separators

section Parts

variable {text name rest : List Char} {separator : Char}

/-! ## Bodies -/

theorem FirstLine.append {line : List Char} (h : FirstLine line rest) (further : List Char) :
    FirstLine line (rest ++ '\n' :: further) := by
  cases h with
  | all hline => exact .before further hline
  | before behind hline =>
      rw [List.append_assoc]
      exact .before (behind ++ '\n' :: further) hline

theorem bodyOf_append_lineFeed (rest further : List Char) :
    bodyOf (rest ++ '\n' :: further) = bodyOf rest := by
  obtain ⟨line, hline, hbody⟩ := bodyOf_eq_iff.1 (Eq.refl (bodyOf rest))
  exact bodyOf_eq_iff.2 ⟨line, hline.append further, hbody⟩

/-! ## Parts -/

theorem IsBare.lineFeed_not_mem (h : IsBare text name) : '\n' ∉ text := by
  have hname : '\n' ∉ name := fun hmem => h.unbroken _ hmem (by decide)
  simpa [h.text_eq] using hname

/-- The line feed behind a bare line is the separator. -/
theorem IsBare.decomposes (h : IsBare text name) (further : List Char) :
    Decomposes (text ++ '\n' :: further) name '\n' further where
  text_eq := by simp [h.text_eq]
  named := h.named
  unbroken := h.unbroken
  separated := by decide

/-- A bare line has no parts: there is no separator in it. -/
theorem IsBare.ofChars?_eq_none (h : IsBare text name) : ofChars? text = none := by
  refine Option.eq_none_iff_forall_ne_some.2 fun cell hcell => ?_
  obtain ⟨other, separator, rest, hparts, -⟩ := ofChars?_eq_some_iff.1 hcell
  have htail : name = other ++ separator :: rest :=
    (List.cons.inj (h.text_eq.symm.trans hparts.text_eq)).2
  have hmem : separator ∈ name := by simp [htail]
  exact h.unbroken separator hmem hparts.separated

theorem Decomposes.append (h : Decomposes text name separator rest) (further : List Char) :
    Decomposes (text ++ further) name separator (rest ++ further) where
  text_eq := by simp [h.text_eq]
  named := h.named
  unbroken := h.unbroken
  separated := h.separated

/-- The separator stands before the line feed, or is the line feed. -/
theorem Decomposes.of_append {further : List Char}
    (h : Decomposes (text ++ '\n' :: further) name separator rest) :
    (∃ rest', Decomposes text name separator rest' ∧ rest = rest' ++ '\n' :: further) ∨
      IsBare text name := by
  have hname : '\n' ∉ '%' :: name := by
    have hfree : '\n' ∉ name := fun hmem => h.unbroken _ hmem (by decide)
    simpa using hfree
  have hbare : text = '%' :: name → IsBare text name := fun htext => ⟨htext, h.named, h.unbroken⟩
  have hsplit : text ++ '\n' :: further = ('%' :: name) ++ separator :: rest := h.text_eq
  rcases List.append_eq_append_iff.1 hsplit with ⟨front, hfront, hrest⟩ | ⟨front, hfront, hrest⟩
  · cases front with
    | nil => exact .inr (hbare (by simpa using hfront.symm))
    | cons c front =>
        -- the name would go on behind the line feed
        obtain ⟨rfl, -⟩ := List.cons.inj hrest
        exact absurd (by simp [hfront]) hname
  · cases front with
    | nil => exact .inr (hbare (by simpa using hfront))
    | cons c front =>
        obtain ⟨rfl, rfl⟩ := List.cons.inj hrest
        exact .inl ⟨front, ⟨hfront, h.named, h.unbroken, h.separated⟩, rfl⟩

/-- What follows a line that is not bare makes no difference. -/
theorem ofChars?_append_lineFeed (h : ∀ name, ¬ IsBare text name) (further : List Char) :
    ofChars? (text ++ '\n' :: further) = ofChars? text := by
  refine Option.ext fun cell => ?_
  simp only [ofChars?_eq_some_iff]
  constructor
  · rintro ⟨name, separator, rest, hparts, rfl⟩
    rcases hparts.of_append with ⟨rest', hparts', rfl⟩ | hbare
    · exact ⟨name, separator, rest', hparts', by rw [bodyOf_append_lineFeed]⟩
    · exact absurd hbare (h name)
  · rintro ⟨name, separator, rest, hparts, rfl⟩
    exact ⟨name, separator, _, hparts.append _, by rw [bodyOf_append_lineFeed]⟩

end Parts

/-! ## Texts of several lines -/

/-- Further lines change nothing, unless the first line is bare: then it is no cell alone, and the
line after it is the body of the cell that it is with further lines.  From the third line on, a text
is never read. -/
theorem further_lines (code further : String) :
    ((∀ name, ¬ IsBare code.toList name) → ofText? (code ++ "\n" ++ further) = ofText? code) ∧
    (∀ name : String, IsBare code.toList name.toList →
      ofText? code = none ∧
      ∃ body line, FirstLine line further.toList ∧ IsBody body.toList line ∧
        ofText? (code ++ "\n" ++ further) = some ⟨name, body⟩) ∧
    ∀ more, ofText? (code ++ "\n" ++ further ++ "\n" ++ more) =
      ofText? (code ++ "\n" ++ further) := by
  have htext : (code ++ "\n" ++ further).toList = code.toList ++ '\n' :: further.toList := by simp
  refine ⟨fun hnone => ?_, fun name hbare => ⟨hbare.ofChars?_eq_none, ?_⟩, fun more => ?_⟩
  · rw [ofText?, htext]
    exact ofChars?_append_lineFeed hnone _
  · have hcell := (hbare.decomposes further.toList).ofChars?_eq
    obtain ⟨line, hline, hbody⟩ := bodyOf_eq_iff.1 (Eq.refl (bodyOf further.toList))
    refine ⟨String.ofList (bodyOf further.toList), line, hline, by simpa using hbody, ?_⟩
    rw [ofText?, htext, hcell, String.ofList_toList]
  · -- the first line feed stands in the first two lines
    have hnone : ∀ name, ¬ IsBare (code ++ "\n" ++ further).toList name :=
      fun name hbare => hbare.lineFeed_not_mem (by simp)
    have hmore := ofChars?_append_lineFeed hnone more.toList
    simpa [ofText?] using hmore

theorem further_lines_bare :
    IsBare "%python".toList "python".toList ∧ ofText? "%python" = none ∧
      ofText? "%python\nprint 1" = some ⟨"python", "print 1"⟩ := by
  have hbare : IsBare "%python".toList "python".toList :=
    ⟨by decide, by decide, by simp [separators]⟩
  obtain ⟨hnone, body, line, hline, hbody, hcell⟩ :=
    (further_lines "%python" "print 1").2.1 "python" hbare
  have hall : FirstLine "print 1".toList "print 1".toList := .all (by decide)
  have hkept : IsBody "print 1".toList "print 1".toList := .line (by decide)
  have hbody' : body.toList = "print 1".toList :=
    (bodyOf_eq_iff.2 ⟨line, hline, hbody⟩).symm.trans (bodyOf_eq_iff.2 ⟨_, hall, hkept⟩)
  rw [String.toList_inj.1 hbody'] at hcell
  exact ⟨hbare, hnone, hcell⟩

/-- The second line is run, although the first line is no cell. -/
theorem further_lines_not_ignored :
    ¬ ∀ code further : String, ofText? (code ++ "\n" ++ further) = ofText? code := by
  intro hall
  have hsame := hall "%python" "print 1"
  have hnone : ofText? "%python" = none := by decide
  have hsome : ofText? ("%python" ++ "\n" ++ "print 1") = some ⟨"python", "print 1"⟩ := by decide
  rw [hnone, hsome] at hsame
  cases hsame

end Cell
end CodeSessions
