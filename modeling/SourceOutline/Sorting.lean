/-!
# Sorting

A stable sort of lists by insertion.

## Main statements

* `sort_perm`: sorting rearranges.
* `pairwise_sort`: the result is ordered, and equal elements keep their order.
* `sort_of_pairwise`: what is ordered is left as it is.
-/

namespace SourceOutline

variable {α : Type}

/-- Inserts an element before the first one that it does not come after. -/
def insertSorted (le : α → α → Bool) (a : α) : List α → List α
  | [] => [a]
  | b :: bs => if le a b then a :: b :: bs else b :: insertSorted le a bs

/-- Sorts a list; equal elements keep their order. -/
def sort (le : α → α → Bool) (as : List α) : List α :=
  as.foldr (insertSorted le) []

/-- Insertion adds one element. -/
theorem insertSorted_perm (le : α → α → Bool) (a : α) (bs : List α) :
    (insertSorted le a bs).Perm (a :: bs) := by
  induction bs with
  | nil => exact List.Perm.refl _
  | cons b bs ih =>
    rw [insertSorted]
    split
    · exact List.Perm.refl _
    · exact (ih.cons b).trans (List.Perm.swap a b bs)

/-- Sorting rearranges. -/
theorem sort_perm (le : α → α → Bool) (as : List α) : (sort le as).Perm as := by
  induction as with
  | nil => exact List.Perm.refl _
  | cons a as ih => exact (insertSorted_perm le a _).trans (ih.cons a)

/-- Insertion keeps a list ordered. The new element comes before all that it is equal to,
and so may be related to them by any `tie` that holds between it and what it is inserted
into. -/
theorem pairwise_insertSorted {le : α → α → Bool} (total : ∀ a b, le a b || le b a)
    (trans : ∀ a b c, le a b → le b c → le a c) {tie : α → α → Prop} {a : α} {bs : List α}
    (h : bs.Pairwise fun x y => le x y ∧ (le y x → tie x y))
    (ha : ∀ b ∈ bs, le b a → tie a b) :
    (insertSorted le a bs).Pairwise fun x y => le x y ∧ (le y x → tie x y) := by
  induction bs with
  | nil => simp [insertSorted]
  | cons b bs ih =>
    obtain ⟨hb, hbs⟩ := List.pairwise_cons.1 h
    rw [insertSorted]
    split
    next hab =>
      refine List.pairwise_cons.2 ⟨fun c hc => ⟨?_, ha c hc⟩, h⟩
      rcases List.mem_cons.1 hc with rfl | hc
      · exact hab
      · exact trans a b c hab (hb c hc).1
    next hab =>
      have hba : le b a = true := by simpa [hab] using total a b
      refine List.pairwise_cons.2 ⟨fun c hc => ?_,
        ih hbs fun c hc => ha c (List.mem_cons_of_mem _ hc)⟩
      rcases List.mem_cons.1 ((insertSorted_perm le a bs).mem_iff.1 hc) with rfl | hc
      · exact ⟨hba, fun hcb => absurd hcb hab⟩
      · exact hb c hc

/-- **Sorting is stable.** The result is ordered, and elements that are equal in the order
come as they came before: a `tie` that held between them still does. -/
theorem pairwise_sort {le : α → α → Bool} (total : ∀ a b, le a b || le b a)
    (trans : ∀ a b c, le a b → le b c → le a c) {tie : α → α → Prop} {as : List α}
    (h : as.Pairwise fun a b => le b a → tie a b) :
    (sort le as).Pairwise fun a b => le a b ∧ (le b a → tie a b) := by
  induction as with
  | nil => exact List.Pairwise.nil
  | cons a as ih =>
    obtain ⟨ha, has⟩ := List.pairwise_cons.1 h
    exact pairwise_insertSorted total trans (ih has) fun b hb =>
      ha b ((sort_perm le as).mem_iff.1 hb)

/-- Sorting leaves what is ordered as it is. -/
theorem sort_of_pairwise {le : α → α → Bool} {as : List α}
    (h : as.Pairwise fun a b => le a b = true) :
    sort le as = as := by
  induction as with
  | nil => rfl
  | cons a as ih =>
    obtain ⟨ha, has⟩ := List.pairwise_cons.1 h
    change insertSorted le a (sort le as) = a :: as
    rw [ih has]
    cases as with
    | nil => rfl
    | cons b bs => rw [insertSorted, if_pos (ha b List.mem_cons_self)]

end SourceOutline
