import CodeSessions.Proofs.Wire.Scalars

/-!
# Brackets — lists and records that are read back

A written list is read back if its items are, and a written record if its members turn the blank
draft into the one it was written from.

- `joined` is how items stand behind one another, from the first or from a later one on,
- `Decoder.reads_list` is the round trip of lists,
- `Drafts` says what the members of a record do to a draft, one after the other, with names that
  have not occurred before,
- `Decoder.reads_record` is the round trip of records.

Both readers carry fuel.  Every item and every member takes at least one character of the source, so
the length of the source is enough.
-/

namespace CodeSessions
namespace Wire

/-! ## Items behind one another -/

/-- Items with the commas in front of them.  The first of all has none. -/
def joined (first : Bool) : List String → List Char
  | [] => []
  | item :: items => (if first then [] else [',']) ++ item.toList ++ joined false items

theorem toList_intercalate_eq (items : List String) :
    (",".intercalate items).toList = joined true items := by
  -- by induction on the items behind the first one
  have hbehind : ∀ (items : List String) (item : String),
      (",".intercalate (item :: items)).toList = item.toList ++ joined false items := by
    intro items
    induction items with
    | nil => simp [joined]
    | cons next items ih =>
        intro item
        simp [String.intercalate_cons_cons, ih, joined]
  cases items with
  | nil => simp [joined]
  | cons item items => simp [hbehind, joined]

/-- Whatever comes behind an item, the item ends there. -/
theorem closes_joined (items : List String) {close : Char} (hclose : close = ']' ∨ close = '\x7d')
    (rest : Source) : Closes ((joined false items).map some ++ some close :: rest) := by
  cases items with
  | nil =>
      rcases hclose with rfl | rfl
      · exact .inr (.inl rfl)
      · exact .inr (.inr rfl)
  | cons item items => exact .inl rfl

theorem length_le_joined {items : List String} (h : ∀ item ∈ items, item ≠ "") (first : Bool) :
    items.length ≤ (joined first items).length := by
  induction items generalizing first with
  | nil => simp [joined]
  | cons item items ih =>
      have hitem : item.toList.length ≠ 0 := by simpa using h item (by simp)
      have hrest := ih (fun other hmem => h other (List.mem_cons_of_mem item hmem)) false
      simp only [joined, List.length_append, List.length_cons]
      omega

/-! ## Lists -/

variable {α : Type}

theorem Decoder.itemsFrom_joined {item : Decoder α} {write : α → String}
    (h : ∀ a, item.Reads (write a) a) (hleads : ∀ a, Leads (write a)) (rest : Source)
    (items : List α) :
    ∀ (fuel : Nat) (done : List α), items.length < fuel →
      Decoder.itemsFrom item fuel done
        ((joined done.isEmpty (items.map write)).map some ++ some ']' :: rest) =
        .ok (done.reverse ++ items, rest) := by
  -- by induction on the items; each takes one unit of fuel
  induction items with
  | nil =>
      rintro (_ | fuel) done hfuel
      · cases hfuel
      · simp [joined, Decoder.itemsFrom, skipBlanks_cons, isBlankUnit]
  | cons a items ih =>
      rintro (_ | fuel) done hfuel
      · cases hfuel
      · have hread := h a _ (closes_joined (items.map write) (.inl rfl) rest)
        have hrest := ih fuel (a :: done) (Nat.lt_of_succ_lt_succ hfuel)
        rcases ofText_of_leads (hleads a)
          ((joined false (items.map write)).map some ++ some ']' :: rest) with
          ⟨c, s, hsource, hblank, _, hcomma, hbracket⟩
        have hsplit : (joined done.isEmpty ((a :: items).map write)).map some ++ some ']' :: rest =
            (if done.isEmpty then [] else [some ',']) ++ some c :: s := by
          rw [← hsource]
          cases done <;> simp [joined, Source.ofText]
        rw [hsource] at hread
        rw [hsplit]
        -- the first item stands for itself, a later one behind a comma
        rcases done with _ | ⟨last, done⟩
        · simp only [List.isEmpty_nil, if_true, List.nil_append, Decoder.itemsFrom,
            skipBlanks_cons hblank]
          split
          · rename_i heq
            injection heq with hhead
            exact absurd (Option.some.inj hhead) hbracket
          · rename_i heq
            injection heq with hhead
            exact absurd (Option.some.inj hhead) hcomma
          · simpa [hread, bind, Except.bind] using hrest
        · simp only [List.isEmpty_cons, Bool.false_eq_true, if_false, List.singleton_append,
            Decoder.itemsFrom, skipBlanks_cons (c := ',') (by decide), skipBlanks_cons hblank]
          split
          · rename_i heq
            injection heq with hhead
            exact absurd (Option.some.inj hhead) hbracket
          · simpa [hread, bind, Except.bind] using hrest

theorem ne_empty_of_leads {written : String} (h : Leads written) : written ≠ "" := by
  rcases h with ⟨c, s, hwritten, _⟩
  rintro rfl
  cases hwritten

/-- A list of values that are read back is read back. -/
theorem Decoder.reads_list {item : Decoder α} {write : α → String}
    (h : ∀ a, item.Reads (write a) a) (hleads : ∀ a, Leads (write a)) (items : List α) :
    (Decoder.list item).Reads (Wire.list (items.map write)) items := by
  intro rest _
  have hsplit : Source.ofText (Wire.list (items.map write)) ++ rest =
      some '[' :: ((joined true (items.map write)).map some ++ some ']' :: rest) := by
    simp [Wire.list, Source.ofText, -String.toList_intercalate, toList_intercalate_eq]
  have hwritten : ∀ written ∈ items.map write, written ≠ "" := by
    intro written hmem
    rcases List.mem_map.mp hmem with ⟨a, _, rfl⟩
    exact ne_empty_of_leads (hleads a)
  have hfuel : items.length <
      ((joined true (items.map write)).map some ++ some ']' :: rest).length + 1 := by
    have hlength := length_le_joined hwritten true
    simp only [List.length_append, List.length_map, List.length_cons] at hlength ⊢
    omega
  have hitems := Decoder.itemsFrom_joined h hleads rest items _ [] hfuel
  simpa [hsplit, Decoder.list, skipBlanks_cons, isBlankUnit] using hitems

/-! ## Records -/

variable {σ : Type}

/-- What the members of a record make of a draft, if they are read one after the other.  The names
in `seen` have occurred before. -/
inductive Drafts (fields : List (Decoder.Field σ)) :
    (seen : List String) → σ → List (String × String) → σ → Prop
  | nil {seen draft} : Drafts fields seen draft [] draft
  | cons {seen draft name written field next members last} :
      fields.find? (fun field => field.name == name) = some field → seen.contains name = false →
      (field.read draft).Reads written next → Drafts fields (name :: seen) next members last →
      Drafts fields seen draft ((name, written) :: members) last

/-- The written form of a member. -/
def memberText (member : String × String) : String :=
  text member.1 ++ ":" ++ member.2

theorem record_eq (members : List (String × String)) :
    Wire.record members = "\x7b" ++ ",".intercalate (members.map memberText) ++ "\x7d" :=
  rfl

/-- The key of a member is read, up to the colon behind it. -/
theorem Decoder.nextKey_member (member : String × String) (first : Bool) (rest : Source) :
    ∃ body, Decoder.nextKey first
        ((if first then [] else [some ',']) ++ (Source.ofText (memberText member) ++ rest)) =
        .ok (some member.1, body) ∧
      Decoder.colon body = .ok (Source.ofText member.2 ++ rest) := by
  refine ⟨some ':' :: (Source.ofText member.2 ++ rest), ?_, ?_⟩
  · rcases ofText_text member.1 (some ':' :: (Source.ofText member.2 ++ rest)) with
      ⟨body, hsource, hread⟩
    have hmember : Source.ofText (memberText member) ++ rest = some '"' :: body := by
      refine Eq.trans ?_ hsource
      simp [memberText, Source.ofText]
    cases first <;>
      simp [hmember, Decoder.nextKey, skipBlanks_cons, isBlankUnit, hread, Except.map]
  · simp [Decoder.colon, skipBlanks_cons, isBlankUnit]

theorem Decoder.membersFrom_joined {fields : List (Decoder.Field σ)} {seen : List String}
    {draft last : σ} {members : List (String × String)} (h : Drafts fields seen draft members last)
    (rest : Source) :
    ∀ (fuel : Nat) (first : Bool), members.length < fuel →
      Decoder.membersFrom fields fuel seen first draft
        ((joined first (members.map memberText)).map some ++ some '\x7d' :: rest) =
        .ok (last, rest) := by
  -- by induction on what the members do; each takes one unit of fuel
  induction h with
  | nil =>
      rintro (_ | fuel) first hfuel
      · cases hfuel
      · simp [joined, Decoder.membersFrom, Decoder.nextKey, skipBlanks_cons, isBlankUnit, bind,
          Except.bind]
  | @cons seen draft name written field next members last hfield hseen hread _ ih =>
      rintro (_ | fuel) first hfuel
      · cases hfuel
      · have hvalue := hread _ (closes_joined (members.map memberText) (.inr rfl) rest)
        have hrest := ih fuel false (Nat.lt_of_succ_lt_succ hfuel)
        rcases Decoder.nextKey_member (name, written) first
          ((joined false (members.map memberText)).map some ++ some '\x7d' :: rest) with
          ⟨body, hkey, hcolon⟩
        have hsplit : (joined first (((name, written) :: members).map memberText)).map some ++
              some '\x7d' :: rest =
            (if first then [] else [some ',']) ++ (Source.ofText (memberText (name, written)) ++
              ((joined false (members.map memberText)).map some ++ some '\x7d' :: rest)) := by
          cases first <;> simp [joined, Source.ofText]
        simp only [hsplit, Decoder.membersFrom, hkey, hfield, hseen, hcolon, hvalue, bind,
          Except.bind, Bool.false_eq_true, if_false, hrest]

/-- A record is read back if its members make the finished draft of the blank one. -/
theorem Decoder.reads_record {fields : List (Decoder.Field σ)} {blank last : σ}
    {finish : σ → Option α} {a : α} {members : List (String × String)}
    (h : Drafts fields [] blank members last) (hfinish : finish last = some a) :
    (Decoder.record fields blank finish).Reads (Wire.record members) a := by
  intro rest _
  have hsplit : Source.ofText (Wire.record members) ++ rest =
      some '\x7b' :: ((joined true (members.map memberText)).map some ++ some '\x7d' :: rest) := by
    simp [record_eq, Source.ofText, -String.toList_intercalate, toList_intercalate_eq]
  have hwritten : ∀ written ∈ members.map memberText, written ≠ "" := by
    intro written hmem
    rcases List.mem_map.mp hmem with ⟨member, _, rfl⟩
    simp [memberText]
  have hfuel : members.length <
      ((joined true (members.map memberText)).map some ++ some '\x7d' :: rest).length + 1 := by
    have hlength := length_le_joined hwritten true
    simp only [List.length_append, List.length_map, List.length_cons] at hlength ⊢
    omega
  have hread := Decoder.membersFrom_joined h rest _ true hfuel
  simp only [hsplit, Decoder.record, skipBlanks_cons (c := '\x7b') (by decide), hread, hfinish,
    bind, Except.bind]

theorem leads_record (members : List (String × String)) : Leads (Wire.record members) := by
  refine ⟨'\x7b', (",".intercalate (members.map memberText) ++ "\x7d").toList, ?_, by decide,
    by decide, by decide, by decide⟩
  rw [record_eq, String.append_assoc, String.toList_append]
  rfl

/-! ## Whole texts -/

/-- A value that is read back is read from a text that holds nothing else. -/
theorem Decoder.Reads.whole {d : Decoder α} {written : String} {a : α} (h : d.Reads written a) :
    d.whole (Source.ofText written) = .ok a := by
  have hread := h [] trivial
  simp only [List.append_nil] at hread
  simp [Decoder.whole, hread, bind, Except.bind, skipBlanks]

end Wire
end CodeSessions
