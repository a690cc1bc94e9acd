import Mathlib.Data.List.Basic
import SourceOutline.Path

/-!
# The Final Component of a Path

`Path.fileName` cuts a path at its slashes, passes over the pieces that name nothing, and
takes the last one that is left. `Path.IsFinal` says the same of the bytes: the name
stands at the end of the path or before slashes and `.` components only, and at its start
or after a slash. What comes before that slash does not matter at all.

In the same way `Path.extensionOfName` is said by the place of the last dot.

## Main results

* `flatMap_splitAt`, `splitAt_append_pieces`: cutting at a separator and joining.
* `fileName_eq_some_iff`: the file name of a path is its final component.
* `extensionOfName_eq_some_iff`, `isSome_extensionOfName_iff`: the extension of a name.
-/

namespace SourceOutline.Path

variable {sep : UInt8} {p : Path} {name : Bytes}

/-! ### Cutting and joining -/

/-- The pieces of `splitAt` joined again. -/
theorem flatMap_splitAt (sep : UInt8) (bs : Bytes) :
    (splitAt sep bs).flatMap (sep :: ·) = sep :: bs := by
  induction bs with
  | nil => rfl
  | cons b bs ih =>
    rw [splitAt]
    split
    next hb => rw [List.flatMap_cons, ih, hb]; rfl
    next hb =>
      cases hpieces : splitAt sep bs with
      | nil => exact absurd hpieces (splitAt_ne_nil sep bs)
      | cons piece pieces =>
        rw [hpieces] at ih
        simp_all

theorem not_mem_of_mem_splitAt {bs piece : Bytes} (h : piece ∈ splitAt sep bs) :
    sep ∉ piece := by
  induction bs generalizing piece with
  | nil => simp_all [splitAt]
  | cons b bs ih =>
    rw [splitAt] at h
    split at h
    next hb =>
      rcases List.mem_cons.1 h with rfl | h
      · exact List.not_mem_nil
      · exact ih h
    next hb =>
      cases hpieces : splitAt sep bs with
      | nil => exact absurd hpieces (splitAt_ne_nil sep bs)
      | cons first pieces =>
        rw [hpieces] at h ih
        rcases List.mem_cons.1 h with rfl | h
        · simpa [Ne.symm hb] using ih List.mem_cons_self
        · exact ih (List.mem_cons_of_mem _ h)

/-- `splitAt` cuts at each separator. -/
theorem splitAt_append_sep (sep : UInt8) (xs ys : Bytes) :
    splitAt sep (xs ++ sep :: ys) = splitAt sep xs ++ splitAt sep ys := by
  induction xs with
  | nil => simp [splitAt]
  | cons b xs ih =>
    rw [List.cons_append, splitAt, splitAt, ih]
    split
    next => rfl
    next =>
      cases hpieces : splitAt sep xs with
      | nil => exact absurd hpieces (splitAt_ne_nil sep xs)
      | cons piece pieces => rfl

theorem splitAt_of_not_mem {bs : Bytes} (h : sep ∉ bs) : splitAt sep bs = [bs] := by
  induction bs with
  | nil => rfl
  | cons b bs ih =>
    rw [List.mem_cons, not_or] at h
    rw [splitAt, if_neg (Ne.symm h.1), ih h.2]

/-- Pieces put after a text are cut off again by `splitAt`. -/
theorem splitAt_append_pieces {pieces : List Bytes} (h : ∀ piece ∈ pieces, sep ∉ piece)
    (xs : Bytes) :
    splitAt sep (xs ++ pieces.flatMap (sep :: ·)) = splitAt sep xs ++ pieces := by
  induction pieces generalizing xs with
  | nil => simp
  | cons piece pieces ih =>
    rw [List.forall_mem_cons] at h
    rw [List.flatMap_cons, List.cons_append, splitAt_append_sep, ih h.2,
      splitAt_of_not_mem h.1]
    rfl

/-- What stands before a piece ends with a separator, and the pieces after it start with
one. -/
theorem eq_of_splitAt {bs piece : Bytes} {earlier later : List Bytes}
    (h : splitAt sep bs = earlier ++ piece :: later) :
    bs = earlier.flatMap (· ++ [sep]) ++ piece ++ later.flatMap (sep :: ·) := by
  have hturn : ∀ pieces : List Bytes, pieces.flatMap (sep :: ·) ++ [sep] =
      sep :: pieces.flatMap (· ++ [sep]) := by
    intro pieces
    induction pieces with
    | nil => rfl
    | cons first pieces ih => simp [List.append_assoc, ih]
  have hjoin := flatMap_splitAt sep bs
  rw [h, List.flatMap_append, List.flatMap_cons] at hjoin
  have hstart : sep :: bs =
      sep :: (earlier.flatMap (· ++ [sep]) ++ piece ++ later.flatMap (sep :: ·)) := by
    rw [← hjoin, ← List.cons_append, ← List.cons_append, ← hturn]
    simp
  exact (List.cons.inj hstart).2

/-! ### The final component -/

/-- Slashes and `.` components, which name nothing. -/
def Idle (tail : Bytes) : Prop :=
  ∃ pieces : List Bytes, (∀ piece ∈ pieces, piece = [] ∨ piece = [dot]) ∧
    tail = pieces.flatMap (slash :: ·)

/-- The final component of a path, with what may stand before and after it. -/
structure IsFinal (p : Path) (name : Bytes) : Prop where
  ne_nil : name ≠ []
  ne_dot : name ≠ [dot]
  ne_dots : name ≠ [dot, dot]
  no_slash : slash ∉ name
  place : ∃ dir tail, p.bytes = dir ++ name ++ tail ∧ (dir = [] ∨ dir.getLast? = some slash) ∧
    Idle tail

/-- The last element that a filter leaves. -/
theorem getLast?_filter_eq_some_iff {α : Type} {keep : α → Bool} {xs : List α} {x : α} :
    (xs.filter keep).getLast? = some x ↔
      keep x = true ∧ ∃ earlier later, xs = earlier ++ x :: later ∧
        ∀ y ∈ later, keep y = false := by
  rw [← List.head?_reverse, ← List.filter_reverse, List.head?_filter,
    List.find?_eq_some_iff_append]
  refine and_congr_right fun _ => ?_
  constructor
  · rintro ⟨later, earlier, hxs, hlater⟩
    refine ⟨earlier.reverse, later.reverse, ?_,
      fun y hy => by simpa using hlater y (List.mem_reverse.1 hy)⟩
    rw [← List.reverse_reverse xs, hxs]
    simp
  · rintro ⟨earlier, later, rfl, hlater⟩
    exact ⟨later.reverse, earlier.reverse, by simp,
      fun y hy => by simpa using hlater y (List.mem_reverse.1 hy)⟩

/-- `fileName` is the last of the components, unless this is `..`. -/
theorem fileName_eq_some_iff_getLast? :
    p.fileName = some name ↔ p.components.getLast? = some name ∧ name ≠ [dot, dot] := by
  rw [fileName]
  cases p.components.getLast? with
  | none => simp
  | some last =>
    by_cases hlast : last = [dot, dot]
    · simp only [hlast, if_true, reduceCtorEq, Option.some.injEq, false_iff]
      rintro ⟨rfl, hne⟩
      exact hne rfl
    · simp only [hlast, if_false, Option.some.injEq]
      exact ⟨fun h => ⟨h, h ▸ hlast⟩, fun h => h.1⟩

/-- **The `fileName` of a path is its final component.** -/
theorem fileName_eq_some_iff : p.fileName = some name ↔ p.IsFinal name := by
  rw [fileName_eq_some_iff_getLast?, components, getLast?_filter_eq_some_iff]
  constructor
  · rintro ⟨⟨hname, earlier, later, hsplit, hlater⟩, hdots⟩
    rw [decide_eq_true_eq] at hname
    have hslash : slash ∉ name :=
      not_mem_of_mem_splitAt (hsplit ▸ List.mem_append_right _ List.mem_cons_self)
    refine ⟨hname.1, hname.2, hdots, hslash, _, _, eq_of_splitAt hsplit, ?_, later,
      fun piece hpiece => ?_, rfl⟩
    · rcases List.eq_nil_or_concat earlier with rfl | ⟨earlier, piece, rfl⟩
      · exact Or.inl rfl
      · exact Or.inr (by simp)
    · have hskip := hlater piece hpiece
      rw [decide_eq_false_iff_not, not_and_or, not_not, not_not] at hskip
      exact hskip
  · rintro ⟨hnil, hdot, hdots, hslash, dir, tail, hbytes, hdir, pieces, hpieces, rfl⟩
    have hskip : ∀ piece ∈ pieces, slash ∉ piece := by
      intro piece hpiece
      rcases hpieces piece hpiece with rfl | rfl <;> decide
    obtain ⟨earlier, hearlier⟩ : ∃ earlier, splitAt slash (dir ++ name) =
        earlier ++ [name] := by
      rcases hdir with rfl | hdir
      · exact ⟨[], splitAt_of_not_mem hslash⟩
      · obtain ⟨dir, rfl⟩ := List.getLast?_eq_some_iff.1 hdir
        refine ⟨splitAt slash dir, ?_⟩
        rw [List.append_assoc, List.singleton_append, splitAt_append_sep,
          splitAt_of_not_mem hslash]
    refine ⟨⟨decide_eq_true ⟨hnil, hdot⟩, earlier, pieces, ?_, fun piece hpiece => ?_⟩, hdots⟩
    · rw [hbytes, splitAt_append_pieces hskip, hearlier, List.append_assoc,
        List.singleton_append]
    · rw [decide_eq_false_iff_not, not_and_or, not_not, not_not]
      exact hpieces piece hpiece

/-- A path has one final component at most. -/
theorem IsFinal.unique {other : Bytes} (h : p.IsFinal name) (hother : p.IsFinal other) :
    name = other := by
  rw [← fileName_eq_some_iff] at h hother
  exact Option.some.inj (h.symm.trans hother)

/-! ### Extensions -/

/-- The last place where an element stands. -/
theorem exists_last_of_mem {α : Type} {x : α} {xs : List α} (h : x ∈ xs) :
    ∃ before after, xs = before ++ x :: after ∧ x ∉ after := by
  obtain ⟨later, earlier, hrev, hlater⟩ := List.eq_append_cons_of_mem (List.mem_reverse.2 h)
  refine ⟨earlier.reverse, later.reverse, ?_, fun hmem => hlater (List.mem_reverse.1 hmem)⟩
  rw [← List.reverse_reverse xs, hrev]
  simp

/-- Something stands before the last place if it does so before any. -/
theorem exists_last_after {α : Type} {before : List α} (hbefore : before ≠ []) (x : α)
    (rest : List α) :
    ∃ earlier later, before ++ x :: rest = earlier ++ x :: later ∧ earlier ≠ [] ∧
      x ∉ later := by
  by_cases hx : x ∈ rest
  · obtain ⟨earlier, later, rfl, hlater⟩ := exists_last_of_mem hx
    exact ⟨before ++ x :: earlier, later, by simp, by simp, hlater⟩
  · exact ⟨before, rest, rfl, hbefore, hx⟩

/-- `splitLastDot` finds nothing in a name without dots. -/
theorem splitLastDot_of_not_mem (h : dot ∉ name) : splitLastDot name = none := by
  induction name with
  | nil => rfl
  | cons b name ih =>
    rw [List.mem_cons, not_or] at h
    rw [splitLastDot, ih h.2]
    exact if_neg (Ne.symm h.1)

/-- `splitLastDot` cuts at a dot that none follows. -/
theorem splitLastDot_append {after : Bytes} (h : dot ∉ after) (before : Bytes) :
    splitLastDot (before ++ dot :: after) = some (before, after) := by
  induction before with
  | nil =>
    rw [List.nil_append, splitLastDot, splitLastDot_of_not_mem h]
    exact if_pos rfl
  | cons b before ih => rw [List.cons_append, splitLastDot, ih]

/-- What `splitLastDot` cuts a name into. -/
theorem splitLastDot_eq_some_iff {before after : Bytes} :
    splitLastDot name = some (before, after) ↔ name = before ++ dot :: after ∧
      dot ∉ after := by
  refine ⟨fun h => ?_, fun ⟨hname, hafter⟩ => hname ▸ splitLastDot_append hafter before⟩
  by_cases hdot : dot ∈ name
  · obtain ⟨earlier, later, rfl, hlater⟩ := exists_last_of_mem hdot
    rw [splitLastDot_append hlater, Option.some.injEq, Prod.mk.injEq] at h
    obtain ⟨rfl, rfl⟩ := h
    exact ⟨rfl, hlater⟩
  · rw [splitLastDot_of_not_mem hdot] at h
    cases h

/-- **`extensionOfName`** is what follows the last dot of a name, if something stands
before that. -/
theorem extensionOfName_eq_some_iff {ext : Bytes} :
    extensionOfName name = some ext ↔ dot ∉ ext ∧ ∃ before, before ≠ [] ∧
      name = before ++ dot :: ext := by
  constructor
  · intro h
    rw [extensionOfName] at h
    cases hsplit : splitLastDot name with
    | none => simp [hsplit] at h
    | some parts =>
      obtain ⟨before, after⟩ := parts
      by_cases hbefore : before = []
      · simp [hsplit, hbefore] at h
      · simp only [hsplit, hbefore, if_false, Option.some.injEq] at h
        subst h
        obtain ⟨hname, hafter⟩ := splitLastDot_eq_some_iff.1 hsplit
        exact ⟨hafter, before, hbefore, hname⟩
  · rintro ⟨hext, before, hbefore, rfl⟩
    rw [extensionOfName, splitLastDot_append hext]
    exact if_neg hbefore

/-- A name has an extension if a dot stands in it that is not its first byte. -/
theorem isSome_extensionOfName_iff :
    (extensionOfName name).isSome = true ↔ ∃ before rest, before ≠ [] ∧
      name = before ++ dot :: rest := by
  rw [Option.isSome_iff_exists]
  constructor
  · rintro ⟨ext, hext⟩
    obtain ⟨-, before, hbefore, hname⟩ := extensionOfName_eq_some_iff.1 hext
    exact ⟨before, ext, hbefore, hname⟩
  · rintro ⟨before, rest, hbefore, rfl⟩
    obtain ⟨earlier, later, hname, hearlier, hlater⟩ := exists_last_after hbefore dot rest
    exact ⟨later, extensionOfName_eq_some_iff.2 ⟨hlater, earlier, hearlier, hname⟩⟩

end SourceOutline.Path
