/-!
# Ordered Maps

A map as the list of its entries, in the order of their keys. `insertEntry` works on bare
lists and takes the order as an argument; `TextMap` is the type of maps from texts, which
cannot be out of order.

## Main statements

* `lookup_insertEntry`: an entry is what its own key gives, and changes no others.
* `pairwise_insertEntry`: putting an entry in keeps the order.
-/

namespace SourceOutline

section Entries

variable {κ α : Type} [BEq κ]

/-- Puts an entry into entries that are ordered by key, in the place of one with the same
key. -/
def insertEntry (le : κ → κ → Bool) (key : κ) (value : α) : List (κ × α) → List (κ × α)
  | [] => [(key, value)]
  | entry :: entries =>
    if entry.1 == key then (key, value) :: entries
    else if le key entry.1 then (key, value) :: entry :: entries
    else entry :: insertEntry le key value entries

/-- Puts entries into others, one after the other. -/
def insertEntries (le : κ → κ → Bool) (entries more : List (κ × α)) : List (κ × α) :=
  more.foldl (fun entries entry => insertEntry le entry.1 entry.2 entries) entries

/-- What is in the entries after one more was put in. -/
theorem mem_insertEntry {le : κ → κ → Bool} {key : κ} {value : α} {entries : List (κ × α)}
    {entry : κ × α} (h : entry ∈ insertEntry le key value entries) :
    entry = (key, value) ∨ entry ∈ entries := by
  induction entries with
  | nil => exact Or.inl (List.mem_singleton.1 h)
  | cons first entries ih =>
    rw [insertEntry] at h
    split at h
    · exact (List.mem_cons.1 h).imp id (List.mem_cons_of_mem _)
    · split at h
      · exact List.mem_cons.1 h
      · rcases List.mem_cons.1 h with rfl | h
        · exact Or.inr List.mem_cons_self
        · exact (ih h).imp id (List.mem_cons_of_mem _)

variable [LawfulBEq κ]

/-- An entry is what its own key gives, and changes no others. -/
theorem lookup_insertEntry (le : κ → κ → Bool) (key : κ) (value : α) (entries : List (κ × α))
    (other : κ) :
    (insertEntry le key value entries).lookup other =
      if other == key then some value else entries.lookup other := by
  induction entries with
  | nil =>
    rw [insertEntry, List.lookup_cons]
    cases other == key <;> rfl
  | cons entry entries ih =>
    rw [insertEntry]
    split
    · rename_i hkey
      rw [List.lookup_cons, List.lookup_cons, eq_of_beq hkey]
      cases other == key <;> rfl
    · rename_i hkey
      split
      · rw [List.lookup_cons]
        cases other == key <;> rfl
      · rw [List.lookup_cons, List.lookup_cons, ih]
        split
        · rename_i hother
          rw [eq_of_beq hother, if_neg hkey]
        · rfl

/-- Putting an entry in keeps the order, if different keys are compared by `le`. -/
theorem pairwise_insertEntry {le : κ → κ → Bool} {before : κ → κ → Prop}
    (trans : ∀ a b c, before a b → before b c → before a c)
    (compared : ∀ a b, a ≠ b → if le a b then before a b else before b a) (key : κ) (value : α)
    {entries : List (κ × α)} (h : entries.Pairwise fun x y => before x.1 y.1) :
    (insertEntry le key value entries).Pairwise fun x y => before x.1 y.1 := by
  induction entries with
  | nil => exact List.pairwise_singleton _ _
  | cons first entries ih =>
    obtain ⟨hfirst, hentries⟩ := List.pairwise_cons.1 h
    rw [insertEntry]
    split
    · rename_i hkey
      rw [← eq_of_beq hkey]
      exact List.pairwise_cons.2 ⟨hfirst, hentries⟩
    · rename_i hkey
      have hcompared := compared key first.1 fun heq => hkey (beq_iff_eq.2 heq.symm)
      split
      · rename_i hle
        rw [if_pos hle] at hcompared
        refine List.pairwise_cons.2 ⟨fun other hother => ?_, h⟩
        rcases List.mem_cons.1 hother with rfl | hother
        · exact hcompared
        · exact trans _ _ _ hcompared (hfirst other hother)
      · rename_i hle
        rw [if_neg hle] at hcompared
        refine List.pairwise_cons.2 ⟨fun other hother => ?_, ih hentries⟩
        rcases mem_insertEntry hother with rfl | hother
        · exact hcompared
        · exact hfirst other hother

end Entries

/-- A map from texts. -/
structure TextMap (α : Type) where
  /-- The entries, in the order of their keys. -/
  entries : List (String × α)
  ordered : entries.Pairwise fun x y => x.1 < y.1
  deriving DecidableEq, Repr

namespace TextMap

variable {α : Type}

/-- The map without entries. -/
def empty : TextMap α where
  entries := []
  ordered := .nil

instance : Inhabited (TextMap α) where
  default := empty

/-- Whether there are no entries. -/
def isEmpty (map : TextMap α) : Bool :=
  map.entries.isEmpty

/-- Different texts are compared by `≤`. -/
theorem compared_of_ne (a b : String) (h : a ≠ b) :
    if decide (a ≤ b) then a < b else b < a := by
  split
  · rename_i hle
    exact String.not_le.1 fun hge => h (String.le_antisymm (of_decide_eq_true hle) hge)
  · rename_i hle
    exact String.not_le.1 fun hle' => hle (decide_eq_true hle')

/-- Sets the value of a key. -/
def insert (map : TextMap α) (key : String) (value : α) : TextMap α where
  entries := insertEntry (fun a b => decide (a ≤ b)) key value map.entries
  ordered := by
    have trans : ∀ a b c : String, a < b → b < c → a < c := fun _ _ _ => String.lt_trans
    exact pairwise_insertEntry trans compared_of_ne key value map.ordered

/-- The map of some entries; of several with one key the last counts. -/
def ofEntries (entries : List (String × α)) : TextMap α :=
  entries.foldl (fun map entry => map.insert entry.1 entry.2) empty

end TextMap

end SourceOutline
