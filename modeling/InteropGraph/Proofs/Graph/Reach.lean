import InteropGraph.Graph.Dump
import InteropGraph.Proofs.Graph.Basic
import Mathlib.Logic.Relation
import Mathlib.Order.WellFounded

/-!
# The search for reachable nodes

`Graph.Reaches` says what it is to be reachable: a node that exists and is a root, or is referred to
from a reachable node. `mem_reachable_iff` shows that the search finds these nodes and no others. It
does not matter which of the pending nodes a search takes next (`Graph.SearchStep`): it ends
(`wellFounded_searchStep`), and each step keeps that it has met only what can be reached, and that
it has met everything that a node seen refers to (`Search.Sound`).
-/

namespace InteropGraph.Graph

variable {g : Graph} {roots : List EntityId} {seen pending next : List Node} {n m : Node}

theorem references?_entity {id : EntityId} {e : Entity} (h : g.entity? id = some e) :
    g.references? (.entity id) = some e.detail.references := by
  rw [references?, h, Option.map_some]

theorem references?_type {t : TypeId} {type : BridgeType} (h : g.type? t = some type) :
    g.references? (.type t) = some type.references := by
  rw [references?, h, Option.map_some]

/-- A node that exists and that can be reached from some roots by following references. -/
inductive Reaches (g : Graph) (roots : List EntityId) : Node → Prop where
  | root {id : EntityId} {next : List Node} (listed : id ∈ roots)
      (found : g.references? (.entity id) = some next) : Reaches g roots (.entity id)
  | step {n m : Node} {next next' : List Node} (reached : Reaches g roots n)
      (references : g.references? n = some next) (mem : m ∈ next)
      (found : g.references? m = some next') : Reaches g roots m

/-- What is reached is there. -/
theorem Reaches.exists (h : g.Reaches roots n) : ∃ next, g.references? n = some next := by
  cases h with
  | root _ found => exact ⟨_, found⟩
  | step _ _ _ found => exact ⟨_, found⟩

/-! ### Steps of the search -/

theorem explore_nil : g.explore seen [] = seen := by
  rw [explore]

/-- What has been seen is not looked at again. -/
theorem explore_of_mem (h : n ∈ seen) : g.explore seen (n :: pending) = g.explore seen pending := by
  rw [explore, dif_pos h]

/-- What leads nowhere is passed over. -/
theorem explore_of_absent (h : n ∉ seen) (hn : g.references? n = none) :
    g.explore seen (n :: pending) = g.explore seen pending := by
  rw [explore, dif_neg h]
  split
  next => rfl
  next next hnext => cases hn.symm.trans hnext

/-- What is new is followed. -/
theorem explore_of_found (h : n ∉ seen) (hn : g.references? n = some next) :
    g.explore seen (n :: pending) = g.explore (n :: seen) (next ++ pending) := by
  rw [explore, dif_neg h]
  split
  next hnone => cases hn.symm.trans hnone
  next next' hnext =>
    obtain rfl : next = next' := Option.some.inj (hn.symm.trans hnext)
    rfl

/-! ### Searches in any order -/

/-- How far a search has come: the nodes that it has seen, and the nodes that are pending. -/
structure Search where
  seen : List Node
  pending : List Node

/-- A search takes any pending node. If it has been seen or does not exist, it is dropped; otherwise
it is seen now, and the nodes that it refers to become pending. -/
inductive SearchStep (g : Graph) : Search → Search → Prop
  | known {seen before after : List Node} {n : Node} (known : n ∈ seen) :
      SearchStep g ⟨seen, before ++ n :: after⟩ ⟨seen, before ++ after⟩
  | absent {seen before after : List Node} {n : Node} (absent : g.references? n = none) :
      SearchStep g ⟨seen, before ++ n :: after⟩ ⟨seen, before ++ after⟩
  | found {seen before after next : List Node} {n : Node} (fresh : n ∉ seen)
      (found : g.references? n = some next) :
      SearchStep g ⟨seen, before ++ n :: after⟩ ⟨n :: seen, next ++ (before ++ after)⟩

/-- `explore` is a search that takes the first pending node and goes on until none is left. -/
theorem explore_searches (g : Graph) (seen pending : List Node) :
    Relation.ReflTransGen g.SearchStep ⟨seen, pending⟩ ⟨g.explore seen pending, []⟩ := by
  induction seen, pending using explore.induct g with
  | case1 seen =>
    rw [explore_nil]
  | case2 seen n pending h ih =>
    rw [explore_of_mem h]
    exact .head (@SearchStep.known g seen [] pending n h) ih
  | case3 seen n pending h hn ih =>
    rw [explore_of_absent h hn]
    exact .head (@SearchStep.absent g seen [] pending n hn) ih
  | case4 seen n pending h next hn ih =>
    rw [explore_of_found h hn]
    exact .head (@SearchStep.found g seen [] pending next n h hn) ih

/-- Every search ends, in whatever order it takes the nodes: a step sees a node of the graph for the
first time, or leaves fewer nodes pending. -/
theorem wellFounded_searchStep (g : Graph) : WellFounded fun s' s => g.SearchStep s s' := by
  let measure (s : Search) : Nat × Nat := (unseen g.nodes s.seen, s.pending.length)
  have hdrop (seen before after : List Node) (n : Node) :
      Prod.Lex (· < ·) (· < ·) (measure ⟨seen, before ++ after⟩)
        (measure ⟨seen, before ++ n :: after⟩) := by
    refine Prod.Lex.right _ ?_
    simp only [List.length_append, List.length_cons]
    omega
  refine Subrelation.wf ?_
    (InvImage.wf measure (WellFounded.prod_lex wellFounded_lt wellFounded_lt))
  intro s' s hstep
  cases hstep with
  | known => exact hdrop ..
  | absent => exact hdrop ..
  | found fresh found =>
    exact Prod.Lex.left _ _ (unseen_cons_lt (mem_nodes_of_references? found) fresh)

/-- A search can only stop when nothing is pending. -/
theorem pending_eq_nil_of_stopped {s : Search} (h : ∀ s', ¬g.SearchStep s s') : s.pending = [] := by
  obtain ⟨seen, pending⟩ := s
  cases pending with
  | nil => rfl
  | cons n pending =>
    by_cases hseen : n ∈ seen
    · exact absurd (@SearchStep.known g seen [] pending n hseen) (h _)
    · cases hn : g.references? n with
      | none => exact absurd (@SearchStep.absent g seen [] pending n hn) (h _)
      | some next => exact absurd (@SearchStep.found g seen [] pending next n hseen hn) (h _)

/-- A search has met a node if it has seen it or is going to look at it. -/
def Search.Has (s : Search) (n : Node) : Prop :=
  n ∈ s.seen ∨ n ∈ s.pending

/-- What has been met is not lost, if it exists. -/
theorem SearchStep.has {s s' : Search} (h : g.SearchStep s s') (hn : g.references? n = some next)
    (hhas : s.Has n) : s'.Has n := by
  -- what is taken is the only node that is no longer pending
  have hpending {before after : List Node} {m : Node} (hm : n ∈ before ++ m :: after) :
      n = m ∨ n ∈ before ++ after := by
    simpa [or_left_comm] using hm
  cases h with
  | known known =>
    rcases hhas with hseen | hm
    · exact .inl hseen
    · rcases hpending hm with rfl | hm
      · exact .inl known
      · exact .inr hm
  | absent absent =>
    rcases hhas with hseen | hm
    · exact .inl hseen
    · rcases hpending hm with rfl | hm
      · cases hn.symm.trans absent
      · exact .inr hm
  | found =>
    rcases hhas with hseen | hm
    · exact .inl (List.mem_cons_of_mem _ hseen)
    · rcases hpending hm with rfl | hm
      · exact .inl List.mem_cons_self
      · exact .inr (List.mem_append_right _ hm)

/-- What is true of a search from some roots at any time. -/
structure Search.Sound (g : Graph) (roots : List EntityId) (s : Search) : Prop where
  /-- It has only met what can be reached, but for nodes that do not exist. -/
  reached : ∀ {n next}, s.Has n → g.references? n = some next → g.Reaches roots n
  found : ∀ n ∈ s.seen, ∃ next, g.references? n = some next
  roots : ∀ id ∈ roots, ∀ {next}, g.references? (.entity id) = some next → s.Has (.entity id)
  /-- What is referred to from a node that has been seen has been met. -/
  covered : ∀ {n next}, n ∈ s.seen → g.references? n = some next →
    ∀ m ∈ next, ∀ {next'}, g.references? m = some next' → s.Has m

namespace Search

/-- At the start nothing has been seen. -/
theorem sound_start (g : Graph) (roots : List EntityId) :
    Sound g roots ⟨[], roots.map .entity⟩ where
  reached hn hnext := by
    obtain ⟨id, hid, rfl⟩ := List.mem_map.mp (hn.resolve_left List.not_mem_nil)
    exact .root hid hnext
  found _ hn := absurd hn List.not_mem_nil
  roots id hid _ _ := .inr (List.mem_map.mpr ⟨id, hid, rfl⟩)
  covered hn := absurd hn List.not_mem_nil

theorem subset_taken (before after : List Node) (n : Node) :
    before ++ after ⊆ before ++ n :: after :=
  ((List.sublist_cons_self n after).append_left before).subset

/-- A step sees what its roots reach. -/
theorem Sound.step {s s' : Search} (h : Sound g roots s) (hstep : g.SearchStep s s') :
    Sound g roots s' := by
  have hkept {m : Node} {next' : List Node} (hm : g.references? m = some next') (hhas : s.Has m) :
      s'.Has m := hstep.has hm hhas
  cases hstep with
  | @known seen before after n _ | @absent seen before after n _ =>
    have hsub := subset_taken before after n
    refine ⟨fun hx => h.reached (hx.imp_right (hsub ·)), h.found, fun id hid _ hid' => ?_, ?_⟩
    · exact hkept hid' (h.roots id hid hid')
    · intro x next' hx hnext m hm next'' hm'
      exact hkept hm' (h.covered hx hnext m hm hm')
  | @found seen before after next n fresh found =>
    have hn : g.Reaches roots n := h.reached (.inr List.mem_append_cons_self) found
    refine ⟨?_, ?_, fun id hid _ hid' => hkept hid' (h.roots id hid hid'), ?_⟩
    · intro x next' hx hnext
      rcases hx with hx | hx
      · rcases List.mem_cons.mp hx with rfl | hx
        · exact hn
        · exact h.reached (.inl hx) hnext
      · rcases List.mem_append.mp hx with hx | hx
        · exact .step hn found hx hnext
        · exact h.reached (.inr (subset_taken before after n hx)) hnext
    · exact List.forall_mem_cons.mpr ⟨⟨next, found⟩, h.found⟩
    · intro x next' hx hnext m hm next'' hm'
      rcases List.mem_cons.mp hx with rfl | hx
      · obtain rfl : next = next' := Option.some.inj (found.symm.trans hnext)
        exact .inr (List.mem_append_left _ hm)
      · exact hkept hm' (h.covered hx hnext m hm hm')

/-- So does a row of steps. -/
theorem Sound.run {s s' : Search} (h : Sound g roots s)
    (hrun : Relation.ReflTransGen g.SearchStep s s') : Sound g roots s' := by
  induction hrun with
  | refl => exact h
  | tail _ hstep ih => exact ih.step hstep

/-- When nothing is pending any more, exactly what can be reached has been seen. -/
theorem Sound.mem_seen_iff (h : Sound g roots ⟨seen, []⟩) : n ∈ seen ↔ g.Reaches roots n := by
  have hseen {m : Node} (hm : Has ⟨seen, []⟩ m) : m ∈ seen := hm.resolve_right List.not_mem_nil
  constructor
  · intro hn
    obtain ⟨next, hnext⟩ := h.found n hn
    exact h.reached (.inl hn) hnext
  · intro hn
    induction hn with
    | root listed found => exact hseen (h.roots _ listed found)
    | step _ references mem found ih => exact hseen (h.covered ih references _ mem found)

end Search

/-- However a search goes, in the end it has seen what can be reached. -/
theorem mem_iff_of_searches
    (h : Relation.ReflTransGen g.SearchStep ⟨[], roots.map .entity⟩ ⟨seen, []⟩) :
    n ∈ seen ↔ g.Reaches roots n :=
  ((Search.sound_start g roots).run h).mem_seen_iff

/-- The search finds exactly what can be reached. -/
theorem mem_reachable_iff : n ∈ g.reachable roots ↔ g.Reaches roots n :=
  mem_iff_of_searches (g.explore_searches [] (roots.map .entity))

/-! ### Dumps -/

/-- The populated slots are listed with their entities. -/
theorem mem_entities {id : EntityId} {e : Entity} :
    (id, e) ∈ g.entities ↔ g.entity? id = some e := by
  unfold entities
  rw [List.mem_filterMap]
  constructor
  · rintro ⟨i, -, hi⟩
    obtain ⟨e', he', heq⟩ := Option.map_eq_some_iff.mp hi
    cases heq
    exact he'
  · intro h
    refine ⟨id.index, List.mem_range.mpr (index_lt_of_entity? h), ?_⟩
    rw [show (⟨id.index⟩ : EntityId) = id from rfl, h]
    rfl

variable {modules : Modules}

/-- The entities of a dump are those that the listed ones reach. -/
theorem mem_dump_entities {id : EntityId} {e : Entity} :
    (id, e) ∈ (g.dump modules).entities ↔
      g.entity? id = some e ∧ g.Reaches modules.ids (.entity id) := by
  show (id, e) ∈ g.entities.filter _ ↔ _
  rw [List.mem_filter, mem_entities, decide_eq_true_iff, mem_reachable_iff]

/-- The types of a dump are those that the listed entities reach. -/
theorem mem_dump_types {t : TypeId} {type : BridgeType} :
    (t, type) ∈ (g.dump modules).types ↔
      g.type? t = some type ∧ g.Reaches modules.ids (.type t) := by
  show (t, type) ∈ List.filterMap _ _ ↔ _
  rw [List.mem_filterMap]
  constructor
  · rintro ⟨i, -, hi⟩
    by_cases hmem : Node.type ⟨i⟩ ∈ g.reachable modules.ids
    · rw [if_pos hmem] at hi
      obtain ⟨type', htype, heq⟩ := Option.map_eq_some_iff.mp hi
      cases heq
      exact ⟨htype, mem_reachable_iff.mp hmem⟩
    · rw [if_neg hmem] at hi
      cases hi
  · rintro ⟨htype, hreach⟩
    obtain ⟨hlt, -⟩ := Array.getElem?_eq_some_iff.mp htype
    refine ⟨t.index, List.mem_range.mpr hlt, ?_⟩
    rw [if_pos (mem_reachable_iff.mpr hreach), show (⟨t.index⟩ : TypeId) = t from rfl, htype]
    rfl

end InteropGraph.Graph
