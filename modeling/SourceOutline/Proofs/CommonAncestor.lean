import Mathlib.Data.List.Infix
import SourceOutline.Proofs.Ancestry

/-!
# The Lowest Common Ancestor

Two nodes have a lowest common ancestor: a node that encloses both and that every node
enclosing both encloses. By this property alone it is unique, and taking it is
commutative, associative and idempotent.

The common ancestor is found by comparing two ways down, entry by entry. The nodes that
enclose a node are those whose ways down are prefixes of the way down to it, and each
prefix but the empty one is the way down to one of them. So ways down part once and never
meet again, and the longest common prefix of two of them is the way down to the lowest
common ancestor of their ends.

## Main results

* `Arena.IsLowestCommon.unique`, `symm`, `assoc`: what follows from the property.
* `Arena.wayDown_prefix_iff`, `Arena.exists_wayDown_of_prefix`: enclosing nodes are prefixes.
* `SyntaxTree.commonAncestor_eq_ok_iff`: the common ancestor is the lowest one.
* `SyntaxTree.commonAncestor_lowest`: the same with its laws, and the position that is
  read is always there.
-/

namespace SourceOutline

namespace Arena

variable {arena : Arena} {a b c d i : Nat}

/-- A position encloses two others, and whatever encloses both of these encloses it. -/
structure IsLowestCommon (arena : Arena) (a b c : Nat) : Prop where
  left : arena.Encloses c a
  right : arena.Encloses c b
  lowest : ∀ {d : Nat}, arena.Encloses d a → arena.Encloses d b → arena.Encloses d c

namespace IsLowestCommon

/-- `IsLowestCommon` determines the position. -/
theorem unique {c' : Nat} (h : arena.IsLowestCommon a b c) (h' : arena.IsLowestCommon a b c') :
    c = c' :=
  (h'.lowest h.left h.right).antisymm (h.lowest h'.left h'.right)

/-- `IsLowestCommon` is symmetric. -/
theorem symm (h : arena.IsLowestCommon a b c) : arena.IsLowestCommon b a c :=
  ⟨h.right, h.left, fun hb ha => h.lowest ha hb⟩

/-- A node that `Encloses` the other is the lowest common ancestor. -/
theorem of_encloses (h : arena.Encloses a b) : arena.IsLowestCommon a b a :=
  ⟨Encloses.refl arena a, h, fun ha _ => ha⟩

/-- Of three nodes, it does not matter which two are taken first. -/
theorem assoc {ab bc : Nat} (hab : arena.IsLowestCommon a b ab)
    (habc : arena.IsLowestCommon ab c d) (hbc : arena.IsLowestCommon b c bc) :
    arena.IsLowestCommon a bc d := by
  refine ⟨habc.left.trans hab.left, hbc.lowest (habc.left.trans hab.right) habc.right,
    fun ha hbc' => ?_⟩
  exact habc.lowest (hab.lowest ha (hbc'.trans hbc.left)) (hbc'.trans hbc.right)

end IsLowestCommon

/-! ### Prefixes of ways down -/

/-- **Enclosing nodes are prefixes**: a node `Encloses` another just if the way down to it
begins the way down to the other. -/
theorem wayDown_prefix_iff (ha : a < arena.nodeCount) (hi : i < arena.nodeCount) :
    arena.wayDown a <+: arena.wayDown i ↔ arena.Encloses a i := by
  constructor
  · intro hbegin
    have hself : a ∈ arena.wayDown a := (mem_wayDown_iff ha).2 (Encloses.refl arena a)
    exact (mem_wayDown_iff hi).1 (hbegin.subset hself)
  · intro hencloses
    induction hi using arena.parent_induct with
    | root =>
      obtain rfl := encloses_zero_iff.1 hencloses
      exact List.prefix_refl _
    | child i p hchild ih =>
      rcases hchild.encloses_iff.1 hencloses with hencloses | rfl
      · rw [wayDown_of_childOf hchild]
        exact (ih hencloses).trans (List.prefix_append _ _)
      · exact List.prefix_refl _

/-- A prefix of a way down, but the empty one, is the way down to a node on it. -/
theorem exists_wayDown_of_prefix (hi : i < arena.nodeCount) {way : List Nat}
    (hbegin : way <+: arena.wayDown i) (hne : way ≠ []) :
    ∃ c, way = arena.wayDown c ∧ arena.Encloses c i := by
  induction hi using arena.parent_induct with
  | root =>
    rw [wayDown_zero, List.prefix_cons_iff] at hbegin
    rcases hbegin with hnil | ⟨rest, rfl, hrest⟩
    · exact absurd hnil hne
    · rw [List.prefix_nil.1 hrest]
      exact ⟨0, (wayDown_zero arena).symm, Encloses.refl arena 0⟩
  | child i p hchild ih =>
    rw [wayDown_of_childOf hchild, List.prefix_concat_iff] at hbegin
    rcases hbegin with rfl | hbegin
    · exact ⟨i, (wayDown_of_childOf hchild).symm, Encloses.refl arena i⟩
    · obtain ⟨c, hway, hencloses⟩ := ih hbegin
      exact ⟨c, hway, hencloses.child hchild⟩

end Arena

namespace SyntaxTree

variable {t : SyntaxTree} {a b c : Handle} {as bs : List Handle}

/-! ### Shared starts -/

/-- `sharedLength` counts the entries up to the first difference. -/
theorem sharedLength_cons (x y : Handle) :
    sharedLength (x :: as) (y :: bs) = if x = y then sharedLength as bs + 1 else 0 := by
  rw [sharedLength, List.zip_cons_cons, List.takeWhile_cons]
  by_cases heq : x = y
  · rw [if_pos heq, if_pos (decide_eq_true heq)]
    rfl
  · rw [if_neg heq, if_neg (fun h => heq (of_decide_eq_true h))]
    rfl

/-- What two chains share at their starts, by `sharedLength`, is a prefix of both. -/
theorem take_sharedLength_isPrefix (as bs : List Handle) :
    as.take (sharedLength as bs) <+: bs := by
  induction as generalizing bs with
  | nil =>
    rw [List.take_nil]
    exact List.nil_prefix
  | cons x as ih =>
    cases bs with
    | nil => exact List.prefix_refl []
    | cons y bs =>
      rw [sharedLength_cons]
      split
      next heq =>
        rw [heq, List.take_succ_cons, List.cons_prefix_cons]
        exact ⟨rfl, ih bs⟩
      next => exact List.nil_prefix

/-- A common prefix is no longer than `sharedLength`. -/
theorem prefix_take_sharedLength {xs : List Handle} (has : xs <+: as) (hbs : xs <+: bs) :
    xs <+: as.take (sharedLength as bs) := by
  induction xs generalizing as bs with
  | nil => exact List.nil_prefix
  | cons x xs ih =>
    obtain ⟨restA, rfl⟩ := has
    obtain ⟨restB, rfl⟩ := hbs
    rw [List.cons_append, List.cons_append, sharedLength_cons, if_pos rfl, List.take_succ_cons,
      List.cons_prefix_cons]
    exact ⟨rfl, ih (List.prefix_append _ _) (List.prefix_append _ _)⟩

/-- Different positions have different handles. -/
theorem handle_injective (t : SyntaxTree) : Function.Injective t.handle :=
  fun _ _ h => congrArg Handle.index h

/-- Enclosing nodes are prefixes, by their chains. -/
theorem chainTo_prefix_iff {above index : Nat} (habove : above < t.nodeCount)
    (hindex : index < t.nodeCount) :
    t.chainTo above <+: t.chainTo index ↔ t.Encloses above index :=
  (List.prefix_map_iff_of_injective t.handle_injective).trans
    (Arena.wayDown_prefix_iff habove hindex)

/-- All chains start at the root. -/
theorem Owns.root_begins (h : t.Owns a) : [t.rootHandle] <+: t.chainTo a.index := by
  have hroot : t.chainTo 0 = [t.rootHandle] := by
    rw [chainTo, Arena.wayDown_zero]
    rfl
  rw [← hroot, chainTo_prefix_iff t.nodeCount_pos h.2, ← Arena.mem_wayDown_iff h.2]
  exact List.mem_of_head? (Arena.head?_wayDown h.2)

/-- Two chains share their first entry at least. -/
theorem Owns.sharedLength_pos (ha : t.Owns a) (hb : t.Owns b) :
    0 < sharedLength (t.chainTo a.index) (t.chainTo b.index) := by
  have hlength := (prefix_take_sharedLength ha.root_begins hb.root_begins).length_le
  rw [List.length_singleton, List.length_take] at hlength
  omega

/-- **What two chains share** is the chain of the lowest common ancestor of their ends
(`IsLowestCommon`). -/
theorem Owns.exists_shared (ha : t.Owns a) (hb : t.Owns b) :
    ∃ c, (t.chainTo a.index).take (sharedLength (t.chainTo a.index) (t.chainTo b.index)) =
      t.chainTo c ∧
      t.IsLowestCommon a.index b.index c := by
  have hpos := ha.sharedLength_pos hb
  have hle := sharedLength_le (t.chainTo a.index) (t.chainTo b.index)
  have hshared := take_sharedLength_isPrefix (t.chainTo a.index) (t.chainTo b.index)
  have hlongest {xs : List Handle} (hxa : xs <+: t.chainTo a.index)
      (hxb : xs <+: t.chainTo b.index) :=
    prefix_take_sharedLength hxa hxb
  -- from here on only these four facts about the shared length are needed
  generalize sharedLength (t.chainTo a.index) (t.chainTo b.index) =
    shared at hpos hle hshared hlongest ⊢
  obtain ⟨way, hway, htake⟩ :=
    List.prefix_map_iff.1 (List.take_prefix shared (t.chainTo a.index))
  have hne : way ≠ [] := by
    rintro rfl
    have hlength := congrArg List.length htake
    rw [List.length_take, List.map_nil, List.length_nil] at hlength
    omega
  obtain ⟨c, rfl, hca⟩ := Arena.exists_wayDown_of_prefix ha.2 hway hne
  have hc : c < t.nodeCount := Nat.lt_of_le_of_lt hca.le ha.2
  rw [← chainTo] at htake
  refine ⟨c, htake, hca, ?_, fun {d} hda hdb => ?_⟩
  · rw [htake] at hshared
    exact (chainTo_prefix_iff hc hb.2).1 hshared
  · have hd : d < t.nodeCount := Nat.lt_of_le_of_lt hda.le ha.2
    have hbegin :=
      hlongest ((chainTo_prefix_iff hd ha.2).2 hda) ((chainTo_prefix_iff hd hb.2).2 hdb)
    rw [htake] at hbegin
    exact (chainTo_prefix_iff hd hc).1 hbegin

/-- The last entry that two chains share is the lowest common ancestor. -/
theorem Owns.exists_commonAncestor (ha : t.Owns a) (hb : t.Owns b) :
    ∃ c, (t.chainTo a.index)[max (sharedLength (t.chainTo a.index) (t.chainTo b.index)) 1 -
      1]? = some c ∧
      t.commonAncestor a b = .ok c ∧ t.Owns c ∧ t.IsLowestCommon a.index b.index c.index := by
  have hpos := ha.sharedLength_pos hb
  obtain ⟨c, htake, hlowest⟩ := ha.exists_shared hb
  have hc : c < t.nodeCount := Nat.lt_of_le_of_lt hlowest.left.le ha.2
  have hlast :
      (t.chainTo a.index)[max (sharedLength (t.chainTo a.index) (t.chainTo b.index)) 1 - 1]? =
        some (t.handle c) := by
    have hend : ((t.chainTo a.index).take
        (sharedLength (t.chainTo a.index) (t.chainTo b.index))).getLast? =
        some (t.handle c) := by
      rw [htake, chainTo, List.getLast?_map, Arena.getLast?_wayDown hc]
      rfl
    rw [List.getLast?_eq_getElem?, List.length_take, Nat.min_eq_left (sharedLength_le _ _),
      List.getElem?_take_of_lt (by omega)] at hend
    rw [Nat.max_eq_left hpos]
    exact hend
  refine ⟨t.handle c, hlast, ?_, owns_handle hc, hlowest⟩
  rw [commonAncestor, ha.ancestorChain_eq_chainTo, hb.ancestorChain_eq_chainTo]
  dsimp only [bind, Except.bind]
  rw [hlast]
  rfl

/-- **The common ancestor is the lowest one**: `commonAncestor` gives the handle that
`IsLowestCommon`. -/
theorem commonAncestor_eq_ok_iff (ha : t.Owns a) (hb : t.Owns b) :
    t.commonAncestor a b = .ok c ↔ t.Owns c ∧ t.IsLowestCommon a.index b.index c.index := by
  obtain ⟨c', -, hcommon, howns, hlowest⟩ := ha.exists_commonAncestor hb
  rw [hcommon]
  constructor
  · intro h
    obtain rfl := Except.ok.inj h
    exact ⟨howns, hlowest⟩
  · rintro ⟨hc, hc'⟩
    rw [← handle_index howns.1, ← handle_index hc.1, hlowest.unique hc']

/-- **The common ancestor of two nodes is the lowest one.** It is always found, without
reading out of range or being cut off: the two chains share at least their first entry, so
the entry that is read is there. It encloses both nodes, and every node that encloses both
encloses it. Hence it does not depend on the order of the two nodes; of three nodes, it
does not matter which two are taken first; the common ancestor of a node with itself is
the node, and so it is with a node that it encloses. -/
theorem commonAncestor_lowest (t : SyntaxTree) {a b : Handle} (ha : t.Owns a) (hb : t.Owns b) :
    ∃ c chainA chainB, t.commonAncestor a b = .ok c ∧
      (Operation.commonAncestor a b).checked t = some (.ok (.node c)) ∧
      t.ancestorChain a = .ok chainA ∧ t.ancestorChain b = .ok chainB ∧
      0 < sharedLength chainA chainB ∧ max (sharedLength chainA chainB) 1 - 1 < chainA.length ∧
      t.Owns c ∧ t.Encloses c.index a.index ∧ t.Encloses c.index b.index ∧
      (∀ index, t.Encloses index a.index → t.Encloses index b.index →
        t.Encloses index c.index) ∧
      t.commonAncestor b a = .ok c ∧ t.commonAncestor a a = .ok a ∧
      (t.Encloses a.index b.index → c = a) ∧
      ∀ third, t.Owns third →
        (do t.commonAncestor (← t.commonAncestor a b) third) =
          (do t.commonAncestor a (← t.commonAncestor b third)) := by
  obtain ⟨c, hlast, hcommon, howns, hlowest⟩ := ha.exists_commonAncestor hb
  refine ⟨c, _, _, hcommon, ?_, ha.ancestorChain_eq_chainTo, hb.ancestorChain_eq_chainTo,
    ha.sharedLength_pos hb, (List.getElem?_eq_some_iff.1 hlast).1, howns, hlowest.left,
    hlowest.right, fun index hia hib => hlowest.lowest hia hib, ?_, ?_, fun hab => ?_,
    fun third hthird => ?_⟩
  · have hgood : ∀ handle ∈ (Operation.commonAncestor a b).handles, t.Owns handle := by
      intro handle hmem
      rcases List.mem_pair.1 hmem with rfl | rfl
      · exact ha
      · exact hb
    rw [Operation.checked_of_owns hgood, Operation.run, hcommon]
    rfl
  · exact (commonAncestor_eq_ok_iff hb ha).2 ⟨howns, hlowest.symm⟩
  · exact (commonAncestor_eq_ok_iff ha ha).2 ⟨ha, .of_encloses (Arena.Encloses.refl _ _)⟩
  · have hself := (commonAncestor_eq_ok_iff ha hb).2 ⟨ha, .of_encloses hab⟩
    exact Except.ok.inj (hcommon.symm.trans hself)
  · obtain ⟨bc, -, hbc, hownsBC, hlowestBC⟩ := hb.exists_commonAncestor hthird
    obtain ⟨abc, -, habc, hownsABC, hlowestABC⟩ := howns.exists_commonAncestor hthird
    have hassoc :=
      (commonAncestor_eq_ok_iff ha hownsBC).2 ⟨hownsABC, hlowest.assoc hlowestABC hlowestBC⟩
    rw [hcommon, hbc]
    exact habc.trans hassoc.symm

/-- In a faulty list, the two numbers meet in the list. -/
theorem commonAncestor_lowest_two_numbers :
    faultyList.Owns ⟨0, 4⟩ ∧ faultyList.Owns ⟨0, 5⟩ ∧
      faultyList.commonAncestor ⟨0, 4⟩ ⟨0, 5⟩ = .ok ⟨0, 1⟩ ∧
      faultyList.Encloses 1 4 ∧ faultyList.Encloses 1 5 ∧
      ∀ index, faultyList.Encloses index 4 → faultyList.Encloses index 5 →
        faultyList.Encloses index 1 := by
  have hfirst : faultyList.Owns ⟨0, 4⟩ := by decide
  have hsecond : faultyList.Owns ⟨0, 5⟩ := by decide
  have hgiven : faultyList.commonAncestor ⟨0, 4⟩ ⟨0, 5⟩ = .ok ⟨0, 1⟩ := by decide
  obtain ⟨c, -, -, hcommon, -, -, -, -, -, -, hleft, hright, hlowest, -⟩ :=
    commonAncestor_lowest faultyList hfirst hsecond
  obtain rfl := Except.ok.inj (hcommon.symm.trans hgiven)
  exact ⟨hfirst, hsecond, hgiven, hleft, hright, hlowest⟩

end SyntaxTree

end SourceOutline
