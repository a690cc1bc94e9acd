import Mathlib.Data.List.Forall2

/-!
# Searching Lists and Going Through Them

Facts on lists that several modules share. A search stops at the first element of a list
that has what is searched for; `IsFirst` says this of an element and a property, and the
lemmas say it of `find?` and `findSome?`. Going through a list with a step that may fail
(`mapM` in `Except`) either fails or has an outcome for each element, in order
(`forall₂_of_mapM`), and it commutes with what each step commutes with (`mapM_map_eq`,
`bind_map_eq`).
-/

namespace SourceOutline

/-! ### Searches -/

section Searches

variable {α β : Type}

/-- An element is the first of a list with a property. -/
def IsFirst (p : α → Prop) (xs : List α) (x : α) : Prop :=
  ∃ before after, xs = before ++ x :: after ∧ p x ∧ ∀ y ∈ before, ¬ p y

/-- The first element of a list with a property is in the list. -/
theorem IsFirst.mem {p : α → Prop} {xs : List α} {x : α} (h : IsFirst p xs x) : x ∈ xs := by
  obtain ⟨before, after, rfl, -⟩ := h
  exact List.mem_append_right _ List.mem_cons_self

/-- A list has one first element with a property. -/
theorem IsFirst.unique {p : α → Prop} {xs : List α} {x y : α} (hx : IsFirst p xs x)
    (hy : IsFirst p xs y) : x = y := by
  obtain ⟨before, after, rfl, hpx, hbefore⟩ := hx
  obtain ⟨before', after', heq, hpy, hbefore'⟩ := hy
  rcases List.append_eq_append_iff.1 heq with ⟨more, hmore, hrest⟩ | ⟨more, hmore, hrest⟩
  · rcases more with _ | ⟨z, more⟩
    · exact (List.cons.inj hrest).1
    · obtain rfl := (List.cons.inj hrest).1
      exact absurd hpx (hbefore' x (hmore ▸ List.mem_append_right _ List.mem_cons_self))
  · rcases more with _ | ⟨z, more⟩
    · exact (List.cons.inj hrest).1.symm
    · obtain rfl := (List.cons.inj hrest).1
      exact absurd hpy (hbefore y (hmore ▸ List.mem_append_right _ List.mem_cons_self))

/-- `find?` finds the first element with the property that it tests for. -/
theorem find?_eq_some_iff_isFirst {p : α → Bool} {P : α → Prop} (h : ∀ x, p x = true ↔ P x)
    {xs : List α} {x : α} : xs.find? p = some x ↔ IsFirst P xs x := by
  rw [List.find?_eq_some_iff_append]
  constructor
  · rintro ⟨hx, before, after, rfl, hbefore⟩
    refine ⟨before, after, rfl, (h x).1 hx, fun y hy hp => ?_⟩
    have hfalse := hbefore y hy
    rw [(h y).2 hp] at hfalse
    cases hfalse
  · rintro ⟨before, after, rfl, hx, hbefore⟩
    refine ⟨(h x).2 hx, before, after, rfl, fun y hy => ?_⟩
    have hfalse : p y = false := by
      rw [Bool.eq_false_iff]
      exact fun hp => hbefore y hy ((h y).1 hp)
    rw [hfalse]
    rfl

/-- `findSome?` has the answer of the first element, or else that of the others. -/
theorem findSome?_cons_eq_or (f : α → Option β) (a : α) (as : List α) :
    (a :: as).findSome? f = (f a).or (as.findSome? f) := by
  rw [← List.singleton_append, List.findSome?_append, List.findSome?_singleton]

/-- `findSome?` stops at the first element that has an answer. -/
theorem findSome?_eq_some_iff_isFirst {f : α → Option β} {gives : α → β → Prop}
    (h : ∀ a b, f a = some b ↔ gives a b) {as : List α} {b : β} :
    as.findSome? f = some b ↔ ∃ a, IsFirst (fun a => ∃ b, gives a b) as a ∧ gives a b := by
  have hnone (a : α) : f a = none ↔ ¬ ∃ b, gives a b := by
    rw [Option.eq_none_iff_forall_ne_some, not_exists]
    exact forall_congr' fun b => not_congr (h a b)
  rw [List.findSome?_eq_some_iff]
  constructor
  · rintro ⟨before, a, after, rfl, hb, hbefore⟩
    have hgives := (h a b).1 hb
    exact ⟨a, ⟨before, after, rfl, ⟨b, hgives⟩, fun x hx => (hnone x).1 (hbefore x hx)⟩,
      hgives⟩
  · rintro ⟨a, ⟨before, after, rfl, -, hbefore⟩, hgives⟩
    exact ⟨before, a, after, rfl, (h a b).2 hgives, fun x hx => (hnone x).2 (hbefore x hx)⟩

/-- `findSome?` has no answer if no element has one. -/
theorem findSome?_eq_none_iff_forall {f : α → Option β} {gives : α → β → Prop}
    (h : ∀ a b, f a = some b ↔ gives a b) {as : List α} :
    as.findSome? f = none ↔ ∀ a ∈ as, ∀ b, ¬ gives a b := by
  rw [List.findSome?_eq_none_iff]
  refine forall₂_congr fun a _ => ?_
  rw [Option.eq_none_iff_forall_ne_some]
  exact forall_congr' fun b => not_congr (h a b)

end Searches

/-! ### Steps that may fail -/

section Steps

variable {α α' β β' ε : Type}

/-- Something that goes on succeeds only if its first step does. -/
theorem exists_of_bind_eq_ok {x : Except ε α} {g : α → Except ε β} {b : β}
    (h : (x >>= g) = .ok b) :
    ∃ a, x = .ok a ∧ g a = .ok b := by
  cases x with
  | error e => cases h
  | ok a => exact ⟨a, rfl, h⟩

/-- Something that goes on commutes with what its first step and the rest commute with. -/
theorem bind_map_eq {x : Except ε α} {x' : Except ε α'} {g : α → Except ε β}
    {g' : α' → Except ε β'} {f : α → α'} {k : β → β'} (hx : x' = x.map f)
    (hg : ∀ a, x = .ok a → g' (f a) = (g a).map k) :
    (x' >>= g') = (x >>= g).map k := by
  rw [hx]
  cases x with
  | error e => rfl
  | ok a => exact hg a rfl

/-- `mapM` succeeds on a list if the step succeeds on every element. -/
theorem exists_mapM_eq_ok {f : α → Except ε β} {xs : List α} (h : ∀ x ∈ xs, ∃ y, f x = .ok y) :
    ∃ ys, xs.mapM f = .ok ys := by
  induction xs with
  | nil => exact ⟨[], rfl⟩
  | cons x xs ih =>
    obtain ⟨y, hy⟩ := h x List.mem_cons_self
    obtain ⟨ys, hys⟩ := ih fun x hx => h x (List.mem_cons_of_mem _ hx)
    refine ⟨y :: ys, ?_⟩
    rw [List.mapM_cons, hy, hys]
    rfl

/-- What `mapM` gives for a list are the outcomes of the step on its elements, in order. -/
theorem forall₂_of_mapM {f : α → Except ε β} {xs : List α} {ys : List β}
    (h : xs.mapM f = .ok ys) :
    List.Forall₂ (fun x y => f x = .ok y) xs ys := by
  induction xs generalizing ys with
  | nil =>
    obtain rfl := Except.ok.inj h
    exact .nil
  | cons x xs ih =>
    rw [List.mapM_cons] at h
    obtain ⟨y, hy, h⟩ := exists_of_bind_eq_ok h
    obtain ⟨rest, hrest, h⟩ := exists_of_bind_eq_ok h
    obtain rfl := Except.ok.inj h
    exact .cons hy (ih hrest)

/-- What `mapM` gives is the outcome of the step on some element. -/
theorem exists_of_mem_mapM {f : α → Except ε β} {xs : List α} {ys : List β}
    (h : xs.mapM f = .ok ys) :
    ∀ y ∈ ys, ∃ x ∈ xs, f x = .ok y := by
  have hsteps := forall₂_of_mapM h
  clear h
  induction hsteps with
  | nil => exact fun y hy => nomatch hy
  | @cons x y xs ys hstep _ ih =>
    intro other hother
    rcases List.mem_cons.1 hother with rfl | hother
    · exact ⟨x, List.mem_cons_self, hstep⟩
    · obtain ⟨x', hx', hstep'⟩ := ih other hother
      exact ⟨x', List.mem_cons_of_mem _ hx', hstep'⟩

/-- `mapM` commutes with what its step commutes with. -/
theorem mapM_map_eq {f : α → Except ε β} {f' : α' → Except ε β'} {g : α → α'} {g' : β → β'}
    {xs : List α} (h : ∀ x ∈ xs, f' (g x) = (f x).map g') :
    (xs.map g).mapM f' = (xs.mapM f).map (List.map g') := by
  induction xs with
  | nil => rfl
  | cons x xs ih =>
    rw [List.map_cons, List.mapM_cons, List.mapM_cons, h x List.mem_cons_self,
      ih fun y hy => h y (List.mem_cons_of_mem _ hy)]
    cases f x with
    | error e => rfl
    | ok y => cases xs.mapM f <;> rfl

end Steps

end SourceOutline
