import SourceOutline.Proofs.Lists
import SourceOutline.Query.Grouping

/-!
# What Grouping Captures Gives

The groups of some captures are found match by match and merged into a list that is
ordered by definition. This module says what they are without any of that: by the captures
of a match that come first with a role, and by the smallest match of a definition that has
such a capture.

The proof goes through three readings of the merge. `find?_addGroup` says what one more
group does to the group of a definition, `find?_foldl_addGroup` what all of them do, and
`findSome?_liveMatchIds` turns "the first in the list of matches" into "the smallest
match".

## Main results

* `ordered_groupCaptures`: the groups are strictly ordered by definition.
* `find?_groupCaptures`: the group of a definition is that of its first match, completed
  by the later ones.
* `groupCaptures_spec`: the groups of any captures, by their definitions and roles.
-/

namespace SourceOutline

namespace Handle

/-- One handle comes before another: by tree, then by position. -/
def Before (a b : Handle) : Prop :=
  a.tree < b.tree ∨ (a.tree = b.tree ∧ a.index < b.index)

/-- `Before` is transitive. -/
theorem Before.trans {a b c : Handle} (hab : a.Before b) (hbc : b.Before c) : a.Before c := by
  unfold Before at *
  omega

/-- A handle does not come before itself. -/
theorem Before.ne {a b : Handle} (h : a.Before b) : a ≠ b := by
  rintro rfl
  unfold Before at h
  omega

/-- `Handle.le`, the order that is computed, is `Before` on handles that differ. -/
theorem le_iff_before {a b : Handle} (hne : a ≠ b) : a.le b = true ↔ a.Before b := by
  obtain ⟨treeA, indexA⟩ := a
  obtain ⟨treeB, indexB⟩ := b
  have hne' : ¬ (treeA = treeB ∧ indexA = indexB) := by
    rintro ⟨rfl, rfl⟩
    exact hne rfl
  simp only [le, Before, Bool.or_eq_true, Bool.and_eq_true, decide_eq_true_eq]
  omega

/-- Of two handles that differ, one comes `Before` the other. -/
theorem before_of_not_le {a b : Handle} (hne : a ≠ b) (h : a.le b = false) : b.Before a := by
  have hba : ¬ a.Before b := by
    rw [← le_iff_before hne, h]
    exact Bool.false_ne_true
  obtain ⟨treeA, indexA⟩ := a
  obtain ⟨treeB, indexB⟩ := b
  have hne' : ¬ (treeA = treeB ∧ indexA = indexB) := by
    rintro ⟨rfl, rfl⟩
    exact hne rfl
  simp only [Before] at *
  omega

end Handle

namespace Query

/-! ### The specification -/

/-- A capture counts for a match: it is one of the match, and its name does not start with
an underscore. -/
def LiveIn (matchId : Nat) (capture : Capture) : Prop :=
  ¬ ['_'] <+: capture.name.toList ∧ capture.matchId = matchId

/-- The name of a capture ends in a role: after its last dot, or as a whole if it has no
dot. -/
def HasRole (role : String) (capture : Capture) : Prop :=
  '.' ∉ role.toList ∧
    (capture.name = role ∨ ∃ front, capture.name.toList = front ++ '.' :: role.toList)

/-- The first capture of a match with one of some roles is of a node. -/
def Fills (captures : List Capture) (matchId : Nat) (roles : List String) (node : Handle) :
    Prop :=
  ∃ capture, IsFirst (fun c => LiveIn matchId c ∧ ∃ role ∈ roles, HasRole role c) captures
    capture ∧
    capture.node = node

/-- The definition of a match: the node of its first capture with the role `def`, or else
of its first capture. -/
def Defines (captures : List Capture) (matchId : Nat) (node : Handle) : Prop :=
  Fills captures matchId ["def"] node ∨
    (∀ other, ¬ Fills captures matchId ["def"] other) ∧
      ∃ capture, IsFirst (LiveIn matchId) captures capture ∧ capture.node = node

/-- What a group has for some roles: the node of the smallest match of the definition that
has one. -/
def FilledBySmallest (captures : List Capture) (definition : Handle) (roles : List String) :
    Option Handle → Prop
  | some node =>
    ∃ matchId, Defines captures matchId definition ∧ Fills captures matchId roles node ∧
      ∀ smaller < matchId, Defines captures smaller definition →
        ∀ other, ¬ Fills captures smaller roles other
  | none =>
    ∀ matchId, Defines captures matchId definition →
      ∀ other, ¬ Fills captures matchId roles other

/-! ### Roles and first captures -/

/-- `lastPart` passes over an end without dots. -/
theorem lastPart_append {back : List Char} (h : '.' ∉ back) (front : List Char) :
    lastPart (front ++ back) = lastPart front ++ back := by
  have hall : ∀ c ∈ back.reverse, decide (c ≠ '.') = true := by
    intro c hc
    rw [decide_eq_true_eq]
    rintro rfl
    exact h (List.mem_reverse.1 hc)
  rw [lastPart, List.reverse_append, List.takeWhile_append_of_pos hall, List.reverse_append,
    List.reverse_reverse, lastPart]

/-- A text without dots is its own `lastPart`. -/
theorem lastPart_of_not_mem {cs : List Char} (h : '.' ∉ cs) : lastPart cs = cs :=
  lastPart_append h []

/-- The `lastPart` of a text is what comes after the last dot. -/
theorem lastPart_dot_append {back : List Char} (h : '.' ∉ back) (front : List Char) :
    lastPart (front ++ '.' :: back) = back := by
  have hend : lastPart (front ++ ['.']) = [] := by
    rw [lastPart, List.reverse_append]
    rfl
  rw [List.append_cons, lastPart_append h, hend, List.nil_append]

/-- `Capture.role` is what the name of a capture ends in, as `HasRole` says. -/
theorem role_eq_iff (capture : Capture) (role : String) :
    capture.role = role ↔ HasRole role capture := by
  have hrole : capture.role = role ↔ lastPart capture.name.toList = role.toList := by
    rw [Capture.role, ← String.toList_inj, String.toList_ofList]
  rw [hrole, HasRole]
  constructor
  · intro hlast
    by_cases hdot : '.' ∈ capture.name.toList
    · -- the first dot of the reversed name is the last one of the name
      obtain ⟨back, front, hsplit, hback⟩ :=
        List.eq_append_cons_of_mem (List.mem_reverse.2 hdot)
      have hname : capture.name.toList = front.reverse ++ '.' :: back.reverse := by
        rw [List.reverse_eq_iff.1 hsplit]
        simp
      have hback' : '.' ∉ back.reverse := by rwa [List.mem_reverse]
      rw [hname, lastPart_dot_append hback'] at hlast
      rw [← hlast]
      exact ⟨hback', Or.inr ⟨front.reverse, hname⟩⟩
    · rw [lastPart_of_not_mem hdot] at hlast
      rw [← hlast]
      exact ⟨hdot, Or.inl (String.toList_inj.1 hlast)⟩
  · rintro ⟨hdot, rfl | ⟨front, hname⟩⟩
    · exact lastPart_of_not_mem hdot
    · rw [hname, lastPart_dot_append hdot]

/-- Whether a capture counts for a match, as `LiveIn` says. -/
theorem isLive_and_iff (matchId : Nat) (capture : Capture) :
    (capture.isLive && decide (capture.matchId = matchId)) = true ↔
    LiveIn matchId capture := by
  rw [Bool.and_eq_true, decide_eq_true_eq, LiveIn, Capture.isLive, decide_eq_true_eq]
  refine and_congr_left fun _ => not_congr ?_
  rcases capture.name.toList with _ | ⟨c, cs⟩
  · simp
  · simp [eq_comm]

/-- The first of `membersOf` is the first capture that is `LiveIn` the match. -/
theorem head?_membersOf_eq_some_iff {captures : List Capture} {matchId : Nat}
    {capture : Capture} :
    (membersOf captures matchId).head? = some capture ↔
    IsFirst (LiveIn matchId) captures capture := by
  rw [membersOf, List.head?_filter]
  exact find?_eq_some_iff_isFirst (isLive_and_iff matchId)

/-- `nodeOfRole` gives the node that `Fills` the roles. -/
theorem nodeOfRole_membersOf_eq_some_iff {captures : List Capture} {matchId : Nat}
    {roles : List String} {node : Handle} :
    nodeOfRole roles (membersOf captures matchId) = some node ↔
    Fills captures matchId roles node := by
  have hrole (c : Capture) : roles.contains c.role = true ↔
      ∃ role ∈ roles, HasRole role c := by
    rw [List.contains_iff_mem]
    constructor
    · exact fun h => ⟨c.role, h, (role_eq_iff c _).1 rfl⟩
    · rintro ⟨role, hmem, hc⟩
      rwa [(role_eq_iff c role).2 hc]
  rw [nodeOfRole, membersOf, List.find?_filter, Option.map_eq_some_iff]
  refine exists_congr fun c => and_congr_left fun _ => find?_eq_some_iff_isFirst fun c => ?_
  exact decide_eq_true_iff.trans (and_congr (isLive_and_iff matchId c) (hrole c))

/-! ### The group of a match -/

/-- The group of a match, if it has a capture that counts. -/
def matchGroup? (captures : List Capture) (matchId : Nat) : Option Group :=
  Group.ofMembers? (membersOf captures matchId)

/-- `matchGroup?` by the first capture of the match. -/
theorem matchGroup?_eq_some_iff {captures : List Capture} {matchId : Nat} {group : Group} :
    matchGroup? captures matchId = some group ↔
      ∃ first, IsFirst (LiveIn matchId) captures first ∧
        group =
          { definition := (nodeOfRole ["def"] (membersOf captures matchId)).getD first.node
            name := nodeOfRole ["name", "module"] (membersOf captures matchId)
            params := nodeOfRole ["params"] (membersOf captures matchId)
            body := nodeOfRole ["body"] (membersOf captures matchId)
            patternIndex := first.patternIndex } := by
  simp only [← head?_membersOf_eq_some_iff, matchGroup?]
  rcases membersOf captures matchId with _ | ⟨first, more⟩
  · simp [Group.ofMembers?]
  · simp [Group.ofMembers?, eq_comm]

/-- The parts of `matchGroup?` are the nodes of their roles. -/
theorem parts_matchGroup? {captures : List Capture} {matchId : Nat} {group : Group}
    (h : matchGroup? captures matchId = some group) :
    group.name = nodeOfRole ["name", "module"] (membersOf captures matchId) ∧
      group.params = nodeOfRole ["params"] (membersOf captures matchId) ∧
      group.body = nodeOfRole ["body"] (membersOf captures matchId) := by
  obtain ⟨first, -, rfl⟩ := matchGroup?_eq_some_iff.1 h
  exact ⟨rfl, rfl, rfl⟩

/-- A match `Defines` the definition of its group. -/
theorem defines_iff {captures : List Capture} {matchId : Nat} {node : Handle} :
    Defines captures matchId node ↔ ∃ group, matchGroup? captures matchId = some group ∧
      group.definition = node := by
  simp only [matchGroup?_eq_some_iff, Defines, ← nodeOfRole_membersOf_eq_some_iff]
  cases hdef : nodeOfRole ["def"] (membersOf captures matchId) with
  | none =>
    constructor
    · rintro (hsome | ⟨-, first, hfirst, rfl⟩)
      · cases hsome
      · exact ⟨_, ⟨first, hfirst, rfl⟩, rfl⟩
    · rintro ⟨_, ⟨first, hfirst, rfl⟩, rfl⟩
      exact Or.inr ⟨fun _ => nofun, first, hfirst, rfl⟩
  | some other =>
    have hne : membersOf captures matchId ≠ [] := by
      intro hnil
      rw [hnil] at hdef
      cases hdef
    obtain ⟨first, more, hmembers⟩ := List.exists_cons_of_ne_nil hne
    have hfirst : IsFirst (LiveIn matchId) captures first := by
      rw [← head?_membersOf_eq_some_iff, hmembers]
      rfl
    constructor
    · rintro (hsome | ⟨hnone, -⟩)
      · exact ⟨_, ⟨first, hfirst, rfl⟩, Option.some.inj hsome⟩
      · exact absurd rfl (hnone other)
    · rintro ⟨_, ⟨first', hfirst', rfl⟩, rfl⟩
      exact Or.inl rfl

/-! ### Merging groups -/

/-- Groups in the strict order of their definitions. -/
def Ordered (groups : List Group) : Prop :=
  groups.Pairwise fun a b => a.definition.Before b.definition

/-- Groups of one definition merged into one, the first of them first. -/
def merge? : List Group → Option Group
  | [] => none
  | group :: later => some (later.foldl Group.absorb group)

/-- What a group has after it did `absorb` others. -/
theorem foldl_absorb (group : Group) (later : List Group) :
    later.foldl Group.absorb group =
      { group with
        name := group.name.or (later.findSome? (·.name))
        params := group.params.or (later.findSome? (·.params))
        body := group.body.or (later.findSome? (·.body)) } := by
  induction later generalizing group with
  | nil => simp
  | cons next later ih =>
    rw [List.foldl_cons, ih]
    simp only [Group.absorb, List.findSome?_cons, Option.or_assoc, Group.mk.injEq, true_and,
      and_true]
    refine ⟨?_, ?_, ?_⟩ <;> congr 1
    · cases next.name <;> rfl
    · cases next.params <;> rfl
    · cases next.body <;> rfl

/-- A definition that comes before all groups has no group. -/
theorem find?_eq_none_of_before {groups : List Group} {definition : Handle}
    (h : ∀ group ∈ groups, definition.Before group.definition) :
    groups.find? (·.definition = definition) = none := by
  rw [List.find?_eq_none]
  intro group hmem heq
  exact (h group hmem).ne (of_decide_eq_true heq).symm

/-- The definitions after `addGroup`. -/
theorem definition_mem_addGroup {group other : Group} {groups : List Group}
    (h : other ∈ addGroup group groups) :
    other.definition = group.definition ∨
    ∃ old ∈ groups, other.definition = old.definition := by
  induction groups with
  | nil =>
    obtain rfl := List.mem_singleton.1 h
    exact Or.inl rfl
  | cons first rest ih =>
    rw [addGroup] at h
    split at h
    · rcases List.mem_cons.1 h with rfl | hrest
      · exact Or.inr ⟨first, List.mem_cons_self, rfl⟩
      · exact Or.inr ⟨other, List.mem_cons_of_mem _ hrest, rfl⟩
    · split at h
      · rcases List.mem_cons.1 h with rfl | hold
        · exact Or.inl rfl
        · exact Or.inr ⟨other, hold, rfl⟩
      · rcases List.mem_cons.1 h with rfl | hrest
        · exact Or.inr ⟨other, List.mem_cons_self, rfl⟩
        · rcases ih hrest with heq | ⟨old, hold, heq⟩
          · exact Or.inl heq
          · exact Or.inr ⟨old, List.mem_cons_of_mem _ hold, heq⟩

/-- A group that is not after the first of ordered groups, and not of its definition, is
before all of them. -/
theorem Ordered.before_of_le {group first : Group} {rest : List Group}
    (h : Ordered (first :: rest)) (hne : ¬ first.definition = group.definition)
    (hle : group.definition.le first.definition = true) :
    ∀ other ∈ first :: rest, group.definition.Before other.definition := by
  have hbefore := (Handle.le_iff_before (Ne.symm hne)).1 hle
  intro other hother
  rcases List.mem_cons.1 hother with rfl | hother
  · exact hbefore
  · exact hbefore.trans ((List.pairwise_cons.1 h).1 other hother)

/-- `addGroup` keeps the groups `Ordered`. -/
theorem ordered_addGroup (group : Group) {groups : List Group} (h : Ordered groups) :
    Ordered (addGroup group groups) := by
  induction groups with
  | nil => exact List.pairwise_singleton ..
  | cons first rest ih =>
    obtain ⟨hfirst, hrest⟩ := List.pairwise_cons.1 h
    rw [addGroup]
    split
    · exact List.pairwise_cons.2 ⟨hfirst, hrest⟩
    · rename_i hne
      split
      · rename_i hle
        exact List.pairwise_cons.2 ⟨h.before_of_le hne hle, h⟩
      · rename_i hle
        have hbefore := Handle.before_of_not_le (Ne.symm hne) (Bool.eq_false_iff.2 hle)
        refine List.pairwise_cons.2 ⟨fun other hother => ?_, ih hrest⟩
        rcases definition_mem_addGroup hother with heq | ⟨old, hold, heq⟩
        · rwa [heq]
        · rw [heq]
          exact hfirst old hold

/-- What `addGroup` does to the group of a definition. -/
theorem find?_addGroup (group : Group) (definition : Handle) {groups : List Group}
    (h : Ordered groups) :
    (addGroup group groups).find? (·.definition = definition) =
      if group.definition = definition then
        merge? ((groups.find? (·.definition = definition)).toList ++ [group])
      else groups.find? (·.definition = definition) := by
  induction groups with
  | nil =>
    by_cases hd : group.definition = definition <;> simp [addGroup, merge?, hd]
  | cons first rest ih =>
    have hrest : Ordered rest := (List.pairwise_cons.1 h).2
    rw [addGroup]
    split
    · rename_i hsame
      have habsorb : (first.absorb group).definition = first.definition := rfl
      by_cases hd : group.definition = definition
      · simp [hsame, habsorb, hd, merge?]
      · simp [hsame, habsorb, hd]
    · rename_i hne
      split
      · rename_i hle
        by_cases hd : group.definition = definition
        · -- the groups are in order, so none of this definition comes later
          have hnone : (first :: rest).find? (·.definition = definition) = none := by
            rw [← hd]
            exact find?_eq_none_of_before (h.before_of_le hne hle)
          rw [hnone, List.find?_cons_of_pos (by simp [hd]), if_pos hd]
          rfl
        · rw [List.find?_cons_of_neg (by simp [hd]), if_neg hd]
      · by_cases hd : first.definition = definition
        · have hgroup : ¬ group.definition = definition := fun hg => hne (hd.trans hg.symm)
          rw [List.find?_cons_of_pos (by simp [hd]), List.find?_cons_of_pos (by simp [hd]),
            if_neg hgroup]
        · rw [List.find?_cons_of_neg (by simp [hd]), List.find?_cons_of_neg (by simp [hd])]
          exact ih hrest

/-- What a fold of `addGroup` does to the group of a definition: those of that definition
are merged into it. -/
theorem find?_foldl_addGroup (definition : Handle) (more : List Group) {groups : List Group}
    (h : Ordered groups) :
    Ordered (more.foldl (fun acc group => addGroup group acc) groups) ∧
      (more.foldl (fun acc group => addGroup group acc) groups).find?
        (·.definition = definition) =
        merge? ((groups.find? (·.definition = definition)).toList ++
          more.filter (·.definition = definition)) := by
  induction more generalizing groups with
  | nil =>
    refine ⟨h, ?_⟩
    rw [List.foldl_nil]
    cases groups.find? (·.definition = definition) <;> rfl
  | cons next more ih =>
    obtain ⟨hordered, hfind⟩ := ih (ordered_addGroup next h)
    refine ⟨hordered, hfind.trans ?_⟩
    rw [find?_addGroup next definition h]
    by_cases hd : next.definition = definition
    · cases groups.find? (·.definition = definition) <;> simp [hd, merge?]
    · simp [hd]

/-! ### The smallest match -/

/-- The numbers after `addId`. -/
theorem mem_addId {id other : Nat} {ids : List Nat} :
    other ∈ addId id ids ↔ other = id ∨ other ∈ ids := by
  induction ids with
  | nil => simp [addId]
  | cons first rest ih =>
    rw [addId]
    split
    · rename_i heq
      simp [heq]
    · split
      · rw [List.mem_cons]
      · rw [List.mem_cons, ih, List.mem_cons]
        exact or_left_comm

/-- `addId` keeps the strict order. -/
theorem pairwise_addId (id : Nat) {ids : List Nat} (h : ids.Pairwise (· < ·)) :
    (addId id ids).Pairwise (· < ·) := by
  induction ids with
  | nil => exact List.pairwise_singleton ..
  | cons first rest ih =>
    obtain ⟨hfirst, hrest⟩ := List.pairwise_cons.1 h
    rw [addId]
    split
    · exact h
    · rename_i hne
      split
      · rename_i hlt
        refine List.pairwise_cons.2 ⟨fun other hother => ?_, h⟩
        rcases List.mem_cons.1 hother with rfl | hother
        · exact hlt
        · exact Nat.lt_trans hlt (hfirst other hother)
      · rename_i hle
        refine List.pairwise_cons.2 ⟨fun other hother => ?_, ih hrest⟩
        rcases mem_addId.1 hother with rfl | hother
        · omega
        · exact hfirst other hother

/-- `liveMatchIds` are in increasing order, and are the matches with a capture that
counts. -/
theorem liveMatchIds_spec (captures : List Capture) :
    (liveMatchIds captures).Pairwise (· < ·) ∧
      ∀ matchId, matchId ∈ liveMatchIds captures ↔ membersOf captures matchId ≠ [] := by
  have hfold (new old : List Nat) (h : old.Pairwise (· < ·)) :
      (new.foldl (fun ids id => addId id ids) old).Pairwise (· < ·) ∧
        ∀ id, id ∈ new.foldl (fun ids id => addId id ids) old ↔ id ∈ old ∨ id ∈ new := by
    induction new generalizing old with
    | nil => exact ⟨h, fun id => by simp⟩
    | cons next new ih =>
      obtain ⟨hpairwise, hmem⟩ := ih (addId next old) (pairwise_addId next h)
      refine ⟨hpairwise, fun id => ?_⟩
      rw [List.foldl_cons, hmem, mem_addId, List.mem_cons, or_assoc, or_left_comm]
  obtain ⟨hpairwise, hmem⟩ :=
    hfold ((captures.filter Capture.isLive).map (·.matchId)) [] List.Pairwise.nil
  refine ⟨hpairwise, fun matchId => ?_⟩
  rw [liveMatchIds, hmem, membersOf, Ne, List.filter_eq_nil_iff]
  simp [and_assoc]

/-- Searching `liveMatchIds` in order finds what the smallest match with an answer has. -/
theorem findSome?_liveMatchIds {β : Type} {captures : List Capture} {f : Nat → Option β}
    (hf : ∀ matchId, membersOf captures matchId = [] → f matchId = none) {b : β} :
    (liveMatchIds captures).findSome? f = some b ↔
      ∃ matchId, f matchId = some b ∧ ∀ smaller < matchId, f smaller = none := by
  obtain ⟨hpairwise, hmem⟩ := liveMatchIds_spec captures
  rw [List.findSome?_eq_some_iff]
  constructor
  · rintro ⟨before, matchId, after, heq, hsome, hnone⟩
    refine ⟨matchId, hsome, fun smaller hlt => ?_⟩
    by_cases hsmaller : smaller ∈ liveMatchIds captures
    · -- the list is increasing, so a smaller match in it stands before this one
      rw [heq] at hsmaller hpairwise
      obtain ⟨-, hrest, hcross⟩ := List.pairwise_append.1 hpairwise
      obtain ⟨hafter, -⟩ := List.pairwise_cons.1 hrest
      rcases List.mem_append.1 hsmaller with hbefore | hrest
      · exact hnone smaller hbefore
      · rcases List.mem_cons.1 hrest with rfl | hrest
        · exact absurd hlt (Nat.lt_irrefl _)
        · exact absurd hlt (Nat.lt_asymm (hafter smaller hrest))
    · rw [hmem, Classical.not_not] at hsmaller
      exact hf smaller hsmaller
  · rintro ⟨matchId, hsome, hnone⟩
    have hlive : matchId ∈ liveMatchIds captures := by
      rw [hmem]
      intro hnil
      rw [hf matchId hnil] at hsome
      cases hsome
    obtain ⟨before, after, heq⟩ := List.append_of_mem hlive
    rw [heq] at hpairwise
    obtain ⟨-, -, hcross⟩ := List.pairwise_append.1 hpairwise
    exact ⟨before, matchId, after, heq, hsome,
      fun id hid => hnone id (hcross id hid matchId List.mem_cons_self)⟩

/-! ### The groups of captures -/

/-- The group of a match if it is of a definition. -/
def definitionGroup? (captures : List Capture) (definition : Handle) (matchId : Nat) :
    Option Group :=
  (matchGroup? captures matchId).filter (·.definition = definition)

/-- The groups of a definition are those of `matchGroup?` with that definition. -/
theorem definitionGroup?_eq_some_iff {captures : List Capture} {definition : Handle}
    {matchId : Nat} {group : Group} :
    definitionGroup? captures definition matchId = some group ↔
      matchGroup? captures matchId = some group ∧ group.definition = definition := by
  rw [definitionGroup?, Option.filter_eq_some_iff, decide_eq_true_eq]

/-- A match `Defines` a node exactly if it has a group of it. -/
theorem defines_iff_isSome {captures : List Capture} {definition : Handle} {matchId : Nat} :
    Defines captures matchId definition ↔
      ∃ group, definitionGroup? captures definition matchId = some group := by
  simp only [definitionGroup?_eq_some_iff, defines_iff]

/-- A match without captures that count has no group. -/
theorem definitionGroup?_eq_none {captures : List Capture} (definition : Handle)
    {matchId : Nat} (h : membersOf captures matchId = []) :
    definitionGroup? captures definition matchId = none := by
  rw [definitionGroup?, matchGroup?, h]
  rfl

/-- `groupCaptures` gives groups in the strict order of their definitions. -/
theorem ordered_groupCaptures (captures : List Capture) : Ordered (groupCaptures captures) :=
  (find?_foldl_addGroup default _ List.Pairwise.nil).1

/-- The group of a definition is that of its first match, completed by the later ones with
`merge?`. -/
theorem find?_groupCaptures (captures : List Capture) (definition : Handle) :
    (groupCaptures captures).find? (·.definition = definition) =
      merge? ((liveMatchIds captures).filterMap (definitionGroup? captures definition)) := by
  have hfind :=
    (find?_foldl_addGroup definition ((liveMatchIds captures).filterMap (matchGroup? captures))
    List.Pairwise.nil).2
  rw [List.filter_filterMap] at hfind
  exact hfind

/-- Of ordered groups, the one of a definition is found. -/
theorem Ordered.find?_eq_some {groups : List Group} (h : Ordered groups) {group : Group}
    (hmem : group ∈ groups) : groups.find? (·.definition = group.definition) = some group := by
  induction groups with
  | nil => cases hmem
  | cons first rest ih =>
    obtain ⟨hfirst, hrest⟩ := List.pairwise_cons.1 h
    rcases List.mem_cons.1 hmem with rfl | hmem
    · exact List.find?_cons_of_pos (decide_eq_true rfl)
    · rw [List.find?_cons_of_neg (by simpa using (hfirst group hmem).ne)]
      exact ih hrest hmem

/-- The parts of `merge?`: the first of each, and the definition and pattern of the first
group. -/
theorem merge?_eq_some {groups : List Group} {merged : Group}
    (h : merge? groups = some merged) :
    (∃ first, groups.head? = some first ∧ merged.definition = first.definition ∧
        merged.patternIndex = first.patternIndex) ∧
      merged.name = groups.findSome? (·.name) ∧ merged.params = groups.findSome? (·.params) ∧
        merged.body = groups.findSome? (·.body) := by
  rcases groups with _ | ⟨first, later⟩
  · cases h
  · rw [merge?, foldl_absorb, Option.some.injEq] at h
    subst h
    refine ⟨⟨first, rfl, rfl, rfl⟩, ?_, ?_, ?_⟩
    · rw [List.findSome?_cons]
      cases first.name <;> rfl
    · rw [List.findSome?_cons]
      cases first.params <;> rfl
    · rw [List.findSome?_cons]
      cases first.body <;> rfl

/-- Searching what was kept of a list is searching the list. -/
theorem findSome?_filterMap {α β γ : Type} (xs : List α) (f : α → Option β)
    (g : β → Option γ) :
    (xs.filterMap f).findSome? g = xs.findSome? fun x => (f x).bind g := by
  rw [← List.head?_filterMap, List.filterMap_filterMap, List.head?_filterMap]

/-- A match with a definition is a live one. -/
theorem mem_liveMatchIds_of_defines {captures : List Capture} {matchId : Nat}
    {definition : Handle} (h : Defines captures matchId definition) :
    matchId ∈ liveMatchIds captures := by
  obtain ⟨group, hgroup⟩ := defines_iff_isSome.1 h
  rw [(liveMatchIds_spec captures).2]
  intro hnil
  rw [definitionGroup?_eq_none definition hnil] at hgroup
  cases hgroup

/-- What the groups of a definition have first for some roles is what its smallest match
has (`FilledBySmallest`). -/
theorem filledBySmallest_findSome? (captures : List Capture) (definition : Handle)
    {roles : List String} {part : Group → Option Handle}
    (hpart : ∀ matchId group, matchGroup? captures matchId = some group →
      part group = nodeOfRole roles (membersOf captures matchId)) :
    FilledBySmallest captures definition roles
      (((liveMatchIds captures).filterMap (definitionGroup? captures definition)).findSome?
        part) := by
  have hsome (matchId : Nat) (node : Handle) :
      (definitionGroup? captures definition matchId).bind part = some node ↔
        Defines captures matchId definition ∧ Fills captures matchId roles node := by
    rw [Option.bind_eq_some_iff, defines_iff_isSome, ← nodeOfRole_membersOf_eq_some_iff]
    constructor
    · rintro ⟨group, hgroup, hnode⟩
      rw [hpart matchId group (definitionGroup?_eq_some_iff.1 hgroup).1] at hnode
      exact ⟨⟨group, hgroup⟩, hnode⟩
    · rintro ⟨⟨group, hgroup⟩, hnode⟩
      rw [← hpart matchId group (definitionGroup?_eq_some_iff.1 hgroup).1] at hnode
      exact ⟨group, hgroup, hnode⟩
  have hempty (matchId : Nat) (h : membersOf captures matchId = []) :
      (definitionGroup? captures definition matchId).bind part = none := by
    rw [definitionGroup?_eq_none definition h]
    rfl
  rw [findSome?_filterMap]
  cases hfound : (liveMatchIds captures).findSome? fun id =>
      (definitionGroup? captures definition id).bind part with
  | some node =>
    obtain ⟨matchId, hmatch, hsmaller⟩ := (findSome?_liveMatchIds hempty).1 hfound
    obtain ⟨hdefines, hfills⟩ := (hsome matchId node).1 hmatch
    refine ⟨matchId, hdefines, hfills, fun smaller hlt hdef other hother => ?_⟩
    have hnode := (hsome smaller other).2 ⟨hdef, hother⟩
    rw [hsmaller smaller hlt] at hnode
    cases hnode
  | none =>
    intro matchId hdef other hother
    have hnode := (hsome matchId other).2 ⟨hdef, hother⟩
    rw [List.findSome?_eq_none_iff.1 hfound matchId
      (mem_liveMatchIds_of_defines hdef)] at hnode
    cases hnode

/-- A group is what the matches of its definition are merged into. -/
theorem merge?_of_mem {captures : List Capture} {group : Group}
    (h : group ∈ groupCaptures captures) :
    merge? ((liveMatchIds captures).filterMap (definitionGroup? captures group.definition)) =
      some group := by
  rw [← find?_groupCaptures]
  exact (ordered_groupCaptures captures).find?_eq_some h

/-- A node has a group exactly if some match `Defines` it. -/
theorem exists_mem_groupCaptures_iff (captures : List Capture) (definition : Handle) :
    (∃ group ∈ groupCaptures captures, group.definition = definition) ↔
      ∃ matchId, Defines captures matchId definition := by
  constructor
  · rintro ⟨group, hmem, rfl⟩
    obtain ⟨⟨first, hfirst, -⟩, -⟩ := merge?_eq_some (merge?_of_mem hmem)
    rw [List.head?_filterMap] at hfirst
    obtain ⟨matchId, -, hgroup⟩ := List.exists_of_findSome?_eq_some hfirst
    exact ⟨matchId, defines_iff_isSome.2 ⟨first, hgroup⟩⟩
  · rintro ⟨matchId, hdefines⟩
    obtain ⟨group, hgroup⟩ := defines_iff_isSome.1 hdefines
    have hmem := List.mem_filterMap.2 ⟨matchId, mem_liveMatchIds_of_defines hdefines, hgroup⟩
    obtain ⟨first, later, hgroups⟩ := List.exists_cons_of_ne_nil (List.ne_nil_of_mem hmem)
    have hfind := find?_groupCaptures captures definition
    rw [hgroups, merge?] at hfind
    have hdefinition := List.find?_some hfind
    exact ⟨_, List.mem_of_find?_eq_some hfind, of_decide_eq_true hdefinition⟩

/-- The pattern of a group is that of the first capture of the smallest match of its
definition. -/
theorem patternIndex_of_merge? {captures : List Capture} {definition : Handle}
    {group : Group}
    (h : merge? ((liveMatchIds captures).filterMap (definitionGroup? captures definition)) =
      some group) :
    ∃ matchId capture, Defines captures matchId definition ∧
      (∀ smaller < matchId, ¬ Defines captures smaller definition) ∧
      IsFirst (LiveIn matchId) captures capture ∧
      group.patternIndex = capture.patternIndex := by
  obtain ⟨⟨first, hfirst, -, hindex⟩, -⟩ := merge?_eq_some h
  rw [List.head?_filterMap, findSome?_liveMatchIds fun _ =>
    definitionGroup?_eq_none definition] at hfirst
  obtain ⟨matchId, hgroup, hsmaller⟩ := hfirst
  obtain ⟨capture, hcapture, rfl⟩ :=
    matchGroup?_eq_some_iff.1 (definitionGroup?_eq_some_iff.1 hgroup).1
  refine ⟨matchId, capture, defines_iff_isSome.2 ⟨_, hgroup⟩, fun smaller hlt hdef => ?_,
    hcapture, hindex⟩
  obtain ⟨other, hother⟩ := defines_iff_isSome.1 hdef
  rw [hsmaller smaller hlt] at hother
  cases hother

/-- Something fills a part of a group exactly if a match that `Defines` the definition has
a capture for it. -/
theorem FilledBySmallest.isSome_iff {captures : List Capture} {definition : Handle}
    {roles : List String} {part : Option Handle}
    (h : FilledBySmallest captures definition roles part) :
    part.isSome = true ↔ ∃ matchId node, Defines captures matchId definition ∧
      Fills captures matchId roles node := by
  cases part with
  | some node =>
    obtain ⟨matchId, hdefines, hfills, -⟩ := h
    exact iff_of_true rfl ⟨matchId, node, hdefines, hfills⟩
  | none =>
    refine iff_of_false Bool.false_ne_true ?_
    rintro ⟨matchId, node, hdefines, hfills⟩
    exact h matchId hdefines node hfills

/-- The parts of a group come from the smallest matches of its definition that have them. -/
theorem filledBySmallest_of_mem {captures : List Capture} {group : Group}
    (h : group ∈ groupCaptures captures) :
    FilledBySmallest captures group.definition ["name", "module"] group.name ∧
      FilledBySmallest captures group.definition ["params"] group.params ∧
      FilledBySmallest captures group.definition ["body"] group.body := by
  obtain ⟨-, hname, hparams, hbody⟩ := merge?_eq_some (merge?_of_mem h)
  rw [hname, hparams, hbody]
  exact ⟨filledBySmallest_findSome? captures _ fun _ _ hgroup => (parts_matchGroup? hgroup).1,
    filledBySmallest_findSome? captures _ fun _ _ hgroup => (parts_matchGroup? hgroup).2.1,
    filledBySmallest_findSome? captures _ fun _ _ hgroup => (parts_matchGroup? hgroup).2.2⟩

/-- **The groups of captures.** There is one group for each definition of a match, in the
strict order of the definitions. Each part of a group comes from the smallest match of its
definition that has one, and its pattern from the smallest match of its definition; so it
is named exactly if some match of its definition has a name. -/
theorem groupCaptures_spec (captures : List Capture) :
    (groupCaptures captures).Pairwise (fun a b => a.definition.Before b.definition) ∧
    (∀ definition, (∃ group ∈ groupCaptures captures, group.definition = definition) ↔
      ∃ matchId, Defines captures matchId definition) ∧
    ∀ group ∈ groupCaptures captures,
      FilledBySmallest captures group.definition ["name", "module"] group.name ∧
      FilledBySmallest captures group.definition ["params"] group.params ∧
      FilledBySmallest captures group.definition ["body"] group.body ∧
      (∃ matchId capture, Defines captures matchId group.definition ∧
        (∀ smaller < matchId, ¬ Defines captures smaller group.definition) ∧
        IsFirst (LiveIn matchId) captures capture ∧
        group.patternIndex = capture.patternIndex) ∧
      (group.isNamed = true ↔ ∃ matchId node, Defines captures matchId group.definition ∧
        Fills captures matchId ["name", "module"] node) := by
  refine ⟨ordered_groupCaptures captures, exists_mem_groupCaptures_iff captures,
    fun group hmem => ?_⟩
  obtain ⟨hname, hparams, hbody⟩ := filledBySmallest_of_mem hmem
  exact ⟨hname, hparams, hbody, patternIndex_of_merge? (merge?_of_mem hmem), hname.isSome_iff⟩

/-- Two matches of one definition: the first has no name, so the group is named by the
second. -/
theorem groupCaptures_spec_merged :
    let captures : List Capture :=
      [⟨"def", ⟨0, 4⟩, 0, 1⟩, ⟨"_helper.name", ⟨0, 3⟩, 0, 1⟩, ⟨"class.def", ⟨0, 4⟩, 1, 2⟩,
        ⟨"class.name", ⟨0, 5⟩, 1, 2⟩]
    groupCaptures captures = [⟨⟨0, 4⟩, some ⟨0, 5⟩, none, none, 0⟩] ∧
      FilledBySmallest captures ⟨0, 4⟩ ["name", "module"] (some ⟨0, 5⟩) := by
  intro captures
  have hgroups : groupCaptures captures = [⟨⟨0, 4⟩, some ⟨0, 5⟩, none, none, 0⟩] := by decide
  refine ⟨hgroups,
    ((groupCaptures_spec captures).2.2 ⟨⟨0, 4⟩, some ⟨0, 5⟩, none, none, 0⟩ ?_).1⟩
  rw [hgroups]
  exact List.mem_singleton.2 rfl

end Query

end SourceOutline
