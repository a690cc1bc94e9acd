import Mathlib.Data.Finset.Card
import SourceOutline.Tree.Summary

/-!
# Runs of a Summary Cache

A summary cache is asked about nodes of any number of trees, with handles that may be of
other trees or out of range, and is cleared from time to time. This module says what it
holds at each point of such a run, by the requests alone: `AnsweredSince` are the handles
that were answered since the cache was last cleared or was last turned to another tree.

The invariant `Coherent` ties a cache to the requests before. That its keys are of one
tree is what keeps equal positions of different trees apart; that its values were fresh
when they were stored is enough, since a tree with the same number is the same tree.

## Main results

* `Coherent.step`, `coherent_after`: every request keeps the invariant, so it holds at
  each point of a run.
* `coherent_run`: the answers are fresh, failures change nothing, and what is held is what
  was answered.
-/

namespace SourceOutline

/-- Something that is asked of a summary cache. -/
inductive SummaryRequest where
  | summarize (t : SyntaxTree) (node : Handle)
  /-- To forget everything. -/
  | clear

namespace SummaryRequest

/-- Different trees of some requests have different numbers. -/
def DistinctTrees (requests : List SummaryRequest) : Prop :=
  ∀ t node t' node', .summarize t node ∈ requests → .summarize t' node' ∈ requests →
    t.id = t'.id → t = t'

/-- A handle is good for a tree. -/
def Good (t : SyntaxTree) (node : Handle) : Prop :=
  ∃ entry, t.node node = .ok entry

/-- A request does not end the time for which summaries of the tree numbered `id` are
held: it is not to forget everything, and if it is answered, it is about that tree. -/
def StaysWith (id : Nat) : SummaryRequest → Prop
  | .summarize t node => Good t node → t.id = id
  | .clear => False

/-- A handle was answered, and since then everything stayed with its tree. -/
def AnsweredSince (requests : List SummaryRequest) (handle : Handle) : Prop :=
  ∃ before t after, requests = before ++ .summarize t handle :: after ∧ Good t handle ∧
    ∀ request ∈ after, request.StaysWith t.id

end SummaryRequest

open SummaryRequest

/-- A handle that is `Good` for a tree carries its number. -/
theorem SummaryRequest.Good.tree_eq {t : SyntaxTree} {node : Handle} (h : Good t node) :
    node.tree = t.id := by
  obtain ⟨entry, hentry⟩ := h
  unfold SyntaxTree.node at hentry
  split at hentry
  · cases hentry
  · rename_i htree
    exact Classical.not_not.1 htree

/-! ### What one more request does to what was answered -/

section Snoc

variable {past : List SummaryRequest} {request : SummaryRequest} {handle : Handle}

/-- `AnsweredSince` after one more request: what was answered before it or by it. -/
theorem answeredSince_snoc_iff :
    AnsweredSince (past ++ [request]) handle ↔
      (∃ t, request = .summarize t handle ∧ Good t handle) ∨
        AnsweredSince past handle ∧ request.StaysWith handle.tree := by
  constructor
  · rintro ⟨before, t, after, heq, hgood, hstays⟩
    rcases List.eq_nil_or_concat after with rfl | ⟨after, last, rfl⟩
    · obtain ⟨-, hlast⟩ := List.append_inj' heq rfl
      exact Or.inl ⟨t, (List.cons.inj hlast).1, hgood⟩
    · rw [List.concat_eq_append, ← List.cons_append, ← List.append_assoc] at heq
      obtain ⟨rfl, hlast⟩ := List.append_inj' heq rfl
      obtain rfl := (List.cons.inj hlast).1
      rw [List.concat_eq_append] at hstays
      refine Or.inr ⟨⟨before, t, after, rfl, hgood,
        fun r hr => hstays r (List.mem_append_left _ hr)⟩, ?_⟩
      rw [hgood.tree_eq]
      exact hstays request (List.mem_append_right _ List.mem_cons_self)
  · rintro (⟨t, rfl, hgood⟩ | ⟨⟨before, t, after, rfl, hgood, hstays⟩, hlast⟩)
    · exact ⟨past, t, [], rfl, hgood, fun r hr => absurd hr List.not_mem_nil⟩
    · refine ⟨before, t, after ++ [request], by simp, hgood, fun r hr => ?_⟩
      rcases List.mem_append.1 hr with hr | hr
      · exact hstays r hr
      · obtain rfl := List.mem_singleton.1 hr
        rwa [hgood.tree_eq] at hlast

end Snoc

/-! ### One request -/

namespace SummaryCache

/-- The cache after a request. -/
def step (cache : SummaryCache) : SummaryRequest → SummaryCache
  | .summarize t node => (cache.summarize t node).2
  | .clear => empty

/-- The cache after requests, one after the other. -/
def after (requests : List SummaryRequest) : SummaryCache :=
  requests.foldl step empty

/-- The handles whose summaries are held. -/
def keys (cache : SummaryCache) : List Handle :=
  cache.entries.map (·.1)

/-- `summarize` with a handle that is not good fails and changes nothing. -/
theorem summarize_of_error (cache : SummaryCache) {t : SyntaxTree} {node : Handle}
    {e : TraversalError} (h : t.node node = .error e) :
    cache.summarize t node = (.error e, cache) := by
  rw [summarize, h]

/-- What is held after `summarize` has answered: what was held about the tree, and the
summary of the node. -/
theorem snd_summarize_of_ok (cache : SummaryCache) {t : SyntaxTree} {node : Handle}
    {entry : Entry} (h : t.node node = .ok entry) :
    (cache.summarize t node).2 = cache.focus t.id ∧ node ∈ (cache.focus t.id).keys ∨
      (cache.summarize t node).2 =
          { tree := (cache.focus t.id).tree,
            entries := (node, t.summary entry) :: (cache.focus t.id).entries } ∧
        node ∉ (cache.focus t.id).keys := by
  rw [summarize, h]
  dsimp only
  cases hlookup : (cache.focus t.id).entries.lookup node with
  | some summary =>
    refine Or.inl ⟨rfl, ?_⟩
    obtain ⟨before, after, heq, -⟩ := List.lookup_eq_some_iff.1 hlookup
    rw [keys, heq]
    simp
  | none =>
    refine Or.inr ⟨rfl, fun hmem => ?_⟩
    obtain ⟨held, hheld, rfl⟩ := List.mem_map.1 hmem
    simpa using List.lookup_eq_none_iff.1 hlookup held hheld

/-- After `focus` a cache is recorded as being of the tree. -/
theorem tree_focus (cache : SummaryCache) (id : Nat) : (cache.focus id).tree = some id := by
  unfold focus
  split
  · assumption
  · rfl

/-- After `focus` a cache holds nothing new. -/
theorem entries_focus_sublist (cache : SummaryCache) (id : Nat) :
    (cache.focus id).entries.Sublist cache.entries := by
  unfold focus
  split
  · exact List.Sublist.refl _
  · exact List.nil_sublist _

/-! ### The invariant -/

/-- What a cache holds after some requests. -/
structure Coherent (past : List SummaryRequest) (cache : SummaryCache) : Prop where
  /-- All handles are of the tree that is recorded. -/
  tree_of_mem : ∀ held ∈ cache.entries, cache.tree = some held.1.tree
  /-- No handle is held twice. -/
  nodup_keys : cache.keys.Nodup
  /-- The handles are those that were answered. -/
  mem_keys_iff : ∀ handle, handle ∈ cache.keys ↔ AnsweredSince past handle
  /-- The summaries are what a tree with the recorded number says, about which was asked. -/
  fresh_of_mem : ∀ held ∈ cache.entries, ∃ t node, SummaryRequest.summarize t node ∈ past ∧
    t.id = held.1.tree ∧ (t.node held.1).map t.summary = .ok held.2

namespace Coherent

variable {past : List SummaryRequest} {cache : SummaryCache} {t : SyntaxTree} {node : Handle}

/-- A cache that holds nothing. -/
theorem empty_of_forall_not (h : ∀ handle, ¬ AnsweredSince past handle) :
    Coherent past empty where
  tree_of_mem := fun _ hheld => absurd hheld List.not_mem_nil
  nodup_keys := List.nodup_nil
  mem_keys_iff := fun handle => iff_of_false List.not_mem_nil (h handle)
  fresh_of_mem := fun _ hheld => absurd hheld List.not_mem_nil

/-- After `focus` a cache holds what it held of that tree. -/
theorem mem_keys_focus_iff (h : Coherent past cache) (id : Nat) (handle : Handle) :
    handle ∈ (cache.focus id).keys ↔ AnsweredSince past handle ∧ id = handle.tree := by
  rw [← h.mem_keys_iff, keys, focus, keys]
  split
  · rename_i htree
    refine ⟨fun hmem => ⟨hmem, ?_⟩, And.left⟩
    obtain ⟨held, hheld, rfl⟩ := List.mem_map.1 hmem
    exact Option.some.inj (htree.symm.trans (h.tree_of_mem held hheld))
  · rename_i htree
    refine iff_of_false List.not_mem_nil ?_
    rintro ⟨hmem, rfl⟩
    obtain ⟨held, hheld, rfl⟩ := List.mem_map.1 hmem
    exact htree (h.tree_of_mem held hheld)

/-- A held summary is what the tree that is asked about says. -/
theorem fresh (h : Coherent past cache)
    (hdistinct : DistinctTrees (past ++ [.summarize t node])) {held : Handle × Summary}
    (hheld : held ∈ cache.entries) (htree : t.id = held.1.tree) :
    (t.node held.1).map t.summary = .ok held.2 := by
  obtain ⟨t', node', hasked, hid, hfresh⟩ := h.fresh_of_mem held hheld
  obtain rfl : t' = t := hdistinct t' node' t node (List.mem_append_left _ hasked)
    (List.mem_append_right _ List.mem_cons_self) (hid.trans htree.symm)
  exact hfresh

/-- **The answers are fresh**: a cache that is `Coherent` answers what the tree says. -/
theorem summarize_fst (h : Coherent past cache)
    (hdistinct : DistinctTrees (past ++ [.summarize t node])) :
    (cache.summarize t node).1 = (t.node node).map t.summary := by
  refine SummaryCache.summarize_fst cache t node fun summary hlookup => ?_
  obtain ⟨before, after, heq, -⟩ := List.lookup_eq_some_iff.1 hlookup
  have hheld : (node, summary) ∈ (cache.focus t.id).entries :=
    heq ▸ List.mem_append_right _ List.mem_cons_self
  have hkey := (h.mem_keys_focus_iff t.id node).1 (List.mem_map.2 ⟨_, hheld, rfl⟩)
  exact h.fresh hdistinct ((cache.entries_focus_sublist t.id).subset hheld) hkey.2

/-- An answer keeps the cache `Coherent`. -/
theorem summarize_of_ok (h : Coherent past cache) {entry : Entry}
    (hnode : t.node node = .ok entry) :
    Coherent (past ++ [.summarize t node]) (cache.summarize t node).2 := by
  have hgood : Good t node := ⟨entry, hnode⟩
  have hanswered (handle : Handle) : AnsweredSince (past ++ [.summarize t node]) handle ↔
      handle = node ∨ handle ∈ (cache.focus t.id).keys := by
    rw [answeredSince_snoc_iff, h.mem_keys_focus_iff]
    refine or_congr ⟨?_, ?_⟩ (and_congr_right fun _ =>
      ⟨fun hstays => hstays hgood, fun htree _ => htree⟩)
    · rintro ⟨t', heq, -⟩
      exact (SummaryRequest.summarize.inj heq).2.symm
    · rintro rfl
      exact ⟨t, rfl, hgood⟩
  have htree : ∀ held ∈ (cache.focus t.id).entries, (cache.focus t.id).tree =
      some held.1.tree := by
    intro held hheld
    have hkey := (h.mem_keys_focus_iff t.id held.1).1 (List.mem_map.2 ⟨held, hheld, rfl⟩)
    rw [tree_focus, hkey.2]
  have hfresh : ∀ held ∈ (cache.focus t.id).entries, ∃ t' node',
      SummaryRequest.summarize t' node' ∈ past ++ [.summarize t node] ∧ t'.id = held.1.tree ∧
        (t'.node held.1).map t'.summary = .ok held.2 := by
    intro held hheld
    obtain ⟨t', node', hasked, hrest⟩ :=
      h.fresh_of_mem held ((cache.entries_focus_sublist t.id).subset hheld)
    exact ⟨t', node', List.mem_append_left _ hasked, hrest⟩
  have hnodup : (cache.focus t.id).keys.Nodup :=
    h.nodup_keys.sublist ((cache.entries_focus_sublist t.id).map _)
  -- the summary was held already, or it is added
  rcases cache.snd_summarize_of_ok hnode with ⟨hsame, hheld⟩ | ⟨hadded, hnew⟩
  · rw [hsame]
    refine ⟨htree, hnodup, fun handle => ?_, hfresh⟩
    rw [hanswered]
    exact ⟨Or.inr, fun hor => hor.elim (fun heq => heq ▸ hheld) id⟩
  · rw [hadded]
    refine ⟨fun held hmem => ?_, List.nodup_cons.2 ⟨hnew, hnodup⟩, fun handle => ?_,
      fun held hmem => ?_⟩
    · rcases List.mem_cons.1 hmem with rfl | hmem
      · rw [tree_focus, hgood.tree_eq]
      · exact htree held hmem
    · rw [hanswered]
      exact List.mem_cons
    · rcases List.mem_cons.1 hmem with rfl | hmem
      · refine ⟨t, node, List.mem_append_right _ List.mem_cons_self, hgood.tree_eq.symm, ?_⟩
        rw [hnode]
        rfl
      · exact hfresh held hmem

/-- A failure keeps the cache `Coherent`. -/
theorem summarize_of_error (h : Coherent past cache) {e : TraversalError}
    (hnode : t.node node = .error e) :
    Coherent (past ++ [.summarize t node]) (cache.summarize t node).2 := by
  have hbad : ¬ Good t node := by
    rintro ⟨entry, hentry⟩
    rw [hnode] at hentry
    cases hentry
  rw [cache.summarize_of_error hnode]
  refine ⟨h.tree_of_mem, h.nodup_keys, fun handle => ?_, fun held hheld => ?_⟩
  · rw [answeredSince_snoc_iff, h.mem_keys_iff]
    constructor
    · exact fun hanswered => Or.inr ⟨hanswered, fun hgood => absurd hgood hbad⟩
    · rintro (⟨t', heq, hgood⟩ | ⟨hanswered, -⟩)
      · obtain ⟨rfl, rfl⟩ := SummaryRequest.summarize.inj heq
        exact absurd hgood hbad
      · exact hanswered
  · obtain ⟨t', node', hasked, hrest⟩ := h.fresh_of_mem held hheld
    exact ⟨t', node', List.mem_append_left _ hasked, hrest⟩

/-- **Every request keeps the invariant** `Coherent`. -/
theorem step (h : Coherent past cache) (request : SummaryRequest) :
    Coherent (past ++ [request]) (cache.step request) := by
  cases request with
  | summarize t node =>
    cases hnode : t.node node with
    | ok entry => exact h.summarize_of_ok hnode
    | error e => exact h.summarize_of_error hnode
  | clear =>
    refine empty_of_forall_not fun handle hanswered => ?_
    rcases answeredSince_snoc_iff.1 hanswered with ⟨t, heq, -⟩ | ⟨-, hstays⟩
    · cases heq
    · exact hstays

end Coherent

/-- **The invariant holds at each point of a run**, by induction on its requests. -/
theorem coherent_after (requests : List SummaryRequest) :
    Coherent requests (after requests) := by
  induction requests using List.reverseRecOn with
  | nil =>
    refine Coherent.empty_of_forall_not ?_
    rintro handle ⟨before, t, rest, heq, -⟩
    simp at heq
  | append_singleton past request ih =>
    rw [after, List.foldl_concat]
    exact ih.step request

end SummaryCache

/-- **A coherent cache.** Take any requests to a summary cache, about trees with different
numbers. At each point of the run the answer to the next request is what the tree itself
says, and if it fails the cache stays as it was; all handles in the cache are of the tree
that is recorded; and there are as many of them as were answered since the cache was last
cleared or last answered about another tree. -/
theorem SummaryCache.coherent_run (requests : List SummaryRequest)
    (hdistinct : DistinctTrees requests) :
    ∀ past later, requests = past ++ later →
      (∀ t node rest, later = .summarize t node :: rest →
        ((after past).summarize t node).1 = (t.node node).map t.summary ∧
        ∀ e, ((after past).summarize t node).1 = .error e →
          ((after past).summarize t node).2 = after past) ∧
      (∀ held ∈ (after past).entries, (after past).tree = some held.1.tree) ∧
      ∃ answered : Finset Handle, (∀ handle, handle ∈ answered ↔ AnsweredSince past handle) ∧
        (after past).size = answered.card := by
  rintro past later rfl
  have hcoherent := coherent_after past
  refine ⟨?_, hcoherent.tree_of_mem, (after past).keys.toFinset, fun handle => ?_, ?_⟩
  · rintro t node rest rfl
    have hfresh : ((after past).summarize t node).1 = (t.node node).map t.summary := by
      refine hcoherent.summarize_fst fun t₁ node₁ t₂ node₂ h₁ h₂ =>
        hdistinct t₁ node₁ t₂ node₂ ?_ ?_
      · rw [List.append_cons]
        exact List.mem_append_left _ h₁
      · rw [List.append_cons]
        exact List.mem_append_left _ h₂
    refine ⟨hfresh, fun e herror => ?_⟩
    cases hnode : t.node node with
    | ok entry =>
      rw [hfresh, hnode] at herror
      cases herror
    | error e' => rw [(after past).summarize_of_error hnode]
  · rw [List.mem_toFinset, hcoherent.mem_keys_iff]
  · rw [List.toFinset_card_of_nodup hcoherent.nodup_keys, keys, List.length_map]
    rfl

/-- Two trees that are asked about at the same position: a handle of the first is refused
by the second, and the second is not answered from what is held about the first. -/
theorem SummaryCache.coherent_run_two_trees :
    let a := SyntaxTree.ofTree 0 .python [120] (.node default [])
    let b :=
      SyntaxTree.ofTree 1 .python [121] (.node { (default : NodeRecord) with stop := 1 } [])
    let past : List SummaryRequest := [.summarize a ⟨0, 0⟩, .summarize b ⟨0, 0⟩]
    DistinctTrees (past ++ [.summarize b ⟨1, 0⟩]) ∧ (after past).tree = some 0 ∧
      (after past).size = 1 ∧
      ((after past).summarize b ⟨1, 0⟩).1 = (b.node ⟨1, 0⟩).map b.summary ∧
      ∃ answered : Finset Handle, (∀ handle, handle ∈ answered ↔ AnsweredSince past handle) ∧
        (after past).size = answered.card := by
  intro a b past
  have hdistinct : DistinctTrees (past ++ [.summarize b ⟨1, 0⟩]) := by
    have htree (t : SyntaxTree) (node : Handle)
        (h : SummaryRequest.summarize t node ∈ past ++ [.summarize b ⟨1, 0⟩]) : t = a ∨
        t = b := by
      simp only [past, List.cons_append, List.nil_append, List.mem_cons,
        SummaryRequest.summarize.injEq, List.not_mem_nil, or_false] at h
      rcases h with ⟨rfl, -⟩ | ⟨rfl, -⟩ | ⟨rfl, -⟩
      · exact Or.inl rfl
      · exact Or.inr rfl
      · exact Or.inr rfl
    intro t node t' node' h h' hid
    rcases htree t node h with rfl | rfl <;> rcases htree t' node' h' with rfl | rfl
    · rfl
    · exact absurd hid (by decide)
    · exact absurd hid (by decide)
    · rfl
  obtain ⟨hnext, -, hanswered⟩ := coherent_run _ hdistinct past [.summarize b ⟨1, 0⟩] rfl
  exact ⟨hdistinct, by decide, by decide, (hnext b ⟨1, 0⟩ [] rfl).1, hanswered⟩

end SourceOutline
