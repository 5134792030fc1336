/-!
# Tables — finite maps that remember the order of their keys

A `Table` is a list of key–value pairs in the order in which the keys were first set.  It is the
container behind the bindings of an environment, the environments of a store and the sessions of an
interpreter.

- `Table.get?` and `Table.getD` look a key up,
- `Table.set` replaces a value in place or puts a new key last,
- `Table.erase` drops a key,
- `get?_set` and `get?_erase` say what both do to look-ups,
- `nodup_keys_set` and `lookup_filterValues` are for tables without repeated keys.
-/

namespace CodeSessions

structure Table (κ : Type) (α : Type) where
  entries : List (κ × α) := []
  deriving DecidableEq, Repr

namespace Table

variable {κ α : Type}

def empty : Table κ α := ⟨[]⟩

def isEmpty (t : Table κ α) : Bool :=
  t.entries.isEmpty

def keys (t : Table κ α) : List κ :=
  t.entries.map Prod.fst

variable [DecidableEq κ]

/-! ## Look-up -/

def lookup (key : κ) : List (κ × α) → Option α
  | [] => none
  | (k, a) :: rest => if k = key then some a else lookup key rest

def get? (t : Table κ α) (key : κ) : Option α :=
  lookup key t.entries

def getD (t : Table κ α) (key : κ) (default : α) : α :=
  (t.get? key).getD default

def contains (t : Table κ α) (key : κ) : Bool :=
  (t.get? key).isSome

/-! ## Update -/

def store (key : κ) (a : α) : List (κ × α) → List (κ × α)
  | [] => [(key, a)]
  | (k, b) :: rest => if k = key then (k, a) :: rest else (k, b) :: store key a rest

def set (t : Table κ α) (key : κ) (a : α) : Table κ α :=
  ⟨store key a t.entries⟩

def erase (t : Table κ α) (key : κ) : Table κ α :=
  ⟨t.entries.filter fun entry => entry.1 ≠ key⟩

/-! ## Look-up after update -/

@[simp] theorem get?_empty (key : κ) : (empty : Table κ α).get? key = none := rfl

theorem lookup_store (entries : List (κ × α)) (key other : κ) (a : α) :
    lookup other (store key a entries) = if key = other then some a else lookup other entries := by
  induction entries with
  | nil => simp [store, lookup]
  | cons entry rest ih =>
      obtain ⟨k, b⟩ := entry
      by_cases hk : k = key
      · subst hk
        by_cases ho : k = other <;> simp [store, lookup, ho]
      · by_cases ho : k = other
        · subst ho
          simp [store, lookup, hk, Ne.symm hk]
        · simp [store, lookup, hk, ho, ih]

@[simp] theorem get?_set (t : Table κ α) (key other : κ) (a : α) :
    (t.set key a).get? other = if key = other then some a else t.get? other :=
  lookup_store t.entries key other a

theorem lookup_filter_ne (entries : List (κ × α)) (key other : κ) :
    lookup other (entries.filter fun entry => entry.1 ≠ key) =
      if key = other then none else lookup other entries := by
  induction entries with
  | nil => simp [lookup]
  | cons entry rest ih =>
      obtain ⟨k, b⟩ := entry
      by_cases hk : k = key
      · subst hk
        by_cases ho : k = other <;> simp_all [lookup]
      · by_cases ho : k = other
        · subst ho
          simp [lookup, hk, Ne.symm hk]
        · simp_all [lookup]

@[simp] theorem get?_erase (t : Table κ α) (key other : κ) :
    (t.erase key).get? other = if key = other then none else t.get? other :=
  lookup_filter_ne t.entries key other

/-! ## Keys -/

theorem map_fst_store (entries : List (κ × α)) (key : κ) (a : α) :
    (store key a entries).map Prod.fst =
      if key ∈ entries.map Prod.fst then entries.map Prod.fst
      else entries.map Prod.fst ++ [key] := by
  induction entries with
  | nil => simp [store]
  | cons entry rest ih =>
      rcases entry with ⟨k, b⟩
      by_cases hk : k = key
      · simp [store, hk]
      · have hne : key ≠ k := Ne.symm hk
        by_cases hmem : key ∈ rest.map Prod.fst
        · simp only [hmem, if_true] at ih
          have hcons : key ∈ k :: rest.map Prod.fst := List.mem_cons_of_mem k hmem
          simp only [store, hk, if_false, List.map_cons, ih, if_pos hcons]
        · simp only [hmem, if_false] at ih
          simp only [store, hk, if_false, List.map_cons, ih, List.mem_cons, hne, hmem, or_self,
            List.cons_append]

/-- Setting a key keeps the keys distinct. -/
theorem nodup_keys_set {t : Table κ α} (h : t.keys.Nodup) (key : κ) (a : α) :
    (t.set key a).keys.Nodup := by
  have hkeys : (t.set key a).keys = if key ∈ t.keys then t.keys else t.keys ++ [key] :=
    map_fst_store t.entries key a
  rw [hkeys]
  split
  · exact h
  · rename_i hmem
    refine List.nodup_append.mpr ⟨h, by simp, ?_⟩
    intro x hx y hy hxy
    rw [List.mem_singleton.mp hy] at hxy
    exact hmem (hxy ▸ hx)

theorem lookup_eq_none {entries : List (κ × α)} {key : κ} (h : key ∉ entries.map Prod.fst) :
    lookup key entries = none := by
  induction entries with
  | nil => rfl
  | cons entry rest ih =>
      simp only [List.map_cons, List.mem_cons, not_or] at h
      simpa [lookup, Ne.symm h.1] using ih h.2

/-- Changing every value and then dropping entries by their values acts on each look-up alone, if
no key is there twice. -/
theorem lookup_filterValues {β : Type} {entries : List (κ × α)} (h : (entries.map Prod.fst).Nodup)
    (f : α → β) (keep : β → Bool) (key : κ) :
    lookup key ((entries.map fun entry => (entry.1, f entry.2)).filter fun entry => keep entry.2) =
      ((lookup key entries).map f).filter keep := by
  induction entries with
  | nil => rfl
  | cons entry rest ih =>
      rcases entry with ⟨k, a⟩
      simp only [List.map_cons, List.nodup_cons] at h
      have hrest := ih h.2
      by_cases hk : k = key
      · subst hk
        by_cases hkeep : keep (f a) = true
        · simp [lookup, hkeep, Option.filter]
        · -- the entry is gone, and no later one has its key
          have hgone : lookup k rest = none := lookup_eq_none h.1
          rw [hgone] at hrest
          simpa [lookup, hkeep, Option.filter] using hrest
      · by_cases hkeep : keep (f a) = true
        · simpa [lookup, hkeep, hk] using hrest
        · simpa [lookup, hkeep, hk] using hrest

end Table
end CodeSessions
