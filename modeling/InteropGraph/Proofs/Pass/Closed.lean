import InteropGraph.Proofs.Graph.Closed
import InteropGraph.Proofs.Pass.Listed
import InteropGraph.Proofs.Pass.Retains
import Mathlib.Data.List.Basic

/-!
# Passes keep graphs closed

Passes move members, remove them and rename entities; all of this happens within a closed set of
nodes that holds what is listed. Only `Draft.alignAccessors` makes entities of its own. It puts them
around methods of the set, so that the set with them is closed again (`Draft.alignAccessors` has a
module of its own). Hence a pass leads from a closed set to a wider one in general, which has some
properties without a source besides (`Draft.Widens`).
-/

namespace InteropGraph

/-- Members that are taken from others refer to no more than those. -/
theorem Members.references_subset {m m' : Members} (hall : m'.all ⊆ m.all)
    (hprotocols : m'.protocols ⊆ m.protocols) : m'.references ⊆ m.references := by
  intro n hn
  obtain ⟨id, hid, rfl⟩ := List.mem_map.mp hn
  refine List.mem_map.mpr ⟨id, ?_, rfl⟩
  rcases List.mem_append.mp hid with hid | hid
  · exact List.mem_append_left _ (hall hid)
  · exact List.mem_append_right _ (hprotocols hid)

namespace Draft

variable {d : Draft} {L : Set Node} {id : EntityId}

/-- The set `L'` for `d'` holds what is in `L`, and besides that only properties without a source.
-/
structure Widens (d d' : Draft) (L L' : Set Node) : Prop where
  subset : L ⊆ L'
  added : ∀ n ∈ L', n ∈ L ∨ ∃ id e, n = .entity id ∧ d'.graph.entity? id = some e ∧
    e.source = none ∧ e.kind = .property
  retains : d.Retains d'

/-- The set may stay as it is. -/
theorem Widens.same {d' : Draft} (h : d.Retains d') : d.Widens d' L L :=
  ⟨subset_refl L, fun _ hn => .inl hn, h⟩

/-- What has been added is closed in later, and stays without a source. -/
theorem Widens.trans {d₁ d₂ d₃ : Draft} {L₁ L₂ L₃ : Set Node} (h : d₁.Widens d₂ L₁ L₂)
    (h' : d₂.Widens d₃ L₂ L₃) : d₁.Widens d₃ L₁ L₃ where
  subset := subset_trans h.subset h'.subset
  added n hn := by
    rcases h'.added n hn with hn | hnew
    · rcases h.added n hn with hn | ⟨id, e, rfl, he, hs, hkind⟩
      · exact .inl hn
      · -- what has been added before is still without a source
        obtain ⟨e', he', hsame⟩ := h'.retains.graph.kept he
        exact .inr ⟨id, e', rfl, he', hsame.source.trans hs, hsame.kind.trans hkind⟩
    · exact .inr hnew
  retains := h.retains.trans h'.retains

/-- Steps that each come to a wider closed set do so in a row. -/
theorem closed_foldl {step : Draft → EntityId → Draft}
    (hstep : ∀ {d L id}, d.graph.Closed L → .entity id ∈ L →
      ∃ L', d.Widens (step d id) L L' ∧ (step d id).graph.Closed L')
    {ids : List EntityId} (h : d.graph.Closed L) (hids : ∀ id ∈ ids, .entity id ∈ L) :
    ∃ L', d.Widens (ids.foldl step d) L L' ∧ (ids.foldl step d).graph.Closed L' := by
  refine List.foldlRecOn (motive := fun d' => ∃ L', d.Widens d' L L' ∧ d'.graph.Closed L') ids step
    ⟨L, .same (.refl d), h⟩ fun d' hd' id hid => ?_
  obtain ⟨L₁, hL₁, h₁⟩ := hd'
  obtain ⟨L₂, hL₂, h₂⟩ := hstep h₁ (hL₁.subset (hids id hid))
  exact ⟨L₂, hL₁.trans hL₂, h₂⟩

/-- The graph is closed on a set that holds what is listed. -/
structure IsClosedOn (d : Draft) (L : Set Node) : Prop where
  closed : d.graph.Closed L
  listed : ∀ id ∈ d.listed, .entity id ∈ L

/-- The graph is closed on some set that holds what is listed. -/
def IsClosed (d : Draft) : Prop :=
  ∃ L, d.graph.Closed L ∧ ∀ id ∈ d.listed, .entity id ∈ L

/-- A pass whose steps may need a wider set, each for what it adds. -/
theorem IsClosedOn.forListed {step : Draft → EntityId → Draft}
    (hsame : ∀ d id, (step d id).listed = d.listed)
    (hstep : ∀ {d L id}, d.graph.Closed L → .entity id ∈ L →
      ∃ L', d.Widens (step d id) L L' ∧ (step d id).graph.Closed L')
    (h : d.IsClosedOn L) :
    ∃ L', d.Widens (d.forListed step) L L' ∧ (d.forListed step).IsClosedOn L' := by
  obtain ⟨L', hwidens, hL'⟩ := closed_foldl hstep h.closed h.listed
  refine ⟨L', hwidens, hL', ?_⟩
  rw [listed_forListed hsame]
  exact fun id hid => hwidens.subset (h.listed id hid)

/-- A pass whose steps need no wider set. -/
theorem IsClosedOn.forListed_same {step : Draft → EntityId → Draft}
    (hsame : ∀ (d : Draft) id, d.SameLists (step d id))
    (hstep : ∀ {d id}, d.graph.Closed L → .entity id ∈ L → (step d id).graph.Closed L)
    (h : d.IsClosedOn L) : (d.forListed step).IsClosedOn L := by
  refine ⟨List.foldlRecOn (motive := fun d' => d'.graph.Closed L) d.listed step h.closed
    fun _ hd' id hid => hstep hd' (h.listed id hid), ?_⟩
  rw [(rel_forListed SameLists.refl SameLists.trans hsame d).listed]
  exact h.listed

/-! ### Members that are removed or moved -/

/-- What is left refers to no more than what there was. -/
theorem Drops.closed {d' : Draft} (hdrops : d.Drops id d') (h : d.graph.Closed L)
    (hid : .entity id ∈ L) : d'.graph.Closed L := by
  cases hdrops with
  | other => exact h
  | @members m after hm hlists hprotocols =>
    have hall : after.all ⊆ m.all := (Members.sublist_all hlists).subset
    have hprotocols' : after.protocols ⊆ m.protocols := hprotocols ▸ List.Subset.refl _
    exact h.mapMembers hid fun _ _ n hn =>
      h.of_members hid hm n (Members.references_subset hall hprotocols' hn)

/-- What has been merged comes from one of the two. -/
theorem mem_references_append {g : Graph} {m additions : Members} {n : Node}
    (h : n ∈ (g.sortMembers (m.append additions)).references) :
    n ∈ m.references ∨ n ∈ additions.references := by
  obtain ⟨i, hi, rfl⟩ := List.mem_map.mp h
  suffices hmem : i ∈ m.all ++ m.protocols ∨ i ∈ additions.all ++ additions.protocols from
    hmem.imp (fun h => List.mem_map.mpr ⟨i, h, rfl⟩) fun h => List.mem_map.mpr ⟨i, h, rfl⟩
  rcases List.mem_append.mp hi with hi | hi
  · -- sorting keeps the members of a list, and appending adds those of the category
    obtain ⟨k, hk⟩ := Members.mem_all_iff.mp hi
    rw [Graph.sortMembers, Members.list_mapLists, Graph.mem_sortByName, Members.list_append,
      List.mem_append] at hk
    exact hk.imp (fun hk => List.mem_append_left _ (Members.mem_all_iff.mpr ⟨k, hk⟩))
      fun hk => List.mem_append_left _ (Members.mem_all_iff.mpr ⟨k, hk⟩)
  · exact (mem_appendNew hi).imp (List.mem_append_right _) (List.mem_append_right _)

/-- A category brings its members and its interface along. -/
theorem references_category {e : Entity} {additions : Members} {extended : EntityId}
    (h : e.category? = some (additions, extended)) :
    e.detail.references = additions.references ++ [.entity extended] := by
  unfold Entity.category? at h
  split at h
  next hdetail =>
    cases h
    rw [hdetail]
    rfl
  next => cases h

/-- The interface of a category is in the set, and so are the members of the category. -/
theorem closed_foldCategory (h : d.graph.Closed L) (hid : .entity id ∈ L) :
    (d.foldCategory id).graph.Closed L := by
  obtain heq | ⟨additions, extended, m, hc, hm, heq⟩ := d.foldCategory_cases id <;> rw [heq]
  · exact h
  · obtain ⟨e, he, hcategory⟩ := Option.bind_eq_some_iff.mp hc
    -- all that the category refers to is in `L`, its interface included
    have href := h.of_entity hid he
    rw [references_category hcategory] at href
    have hextended : .entity extended ∈ L :=
      href _ (List.mem_append_right _ (List.mem_singleton.mpr rfl))
    refine h.mapMembers hextended fun _ _ n hn => ?_
    rcases mem_references_append hn with hn | hn
    · exact h.of_members hextended hm n hn
    · exact href n (List.mem_append_left _ hn)

/-! ### Renamed entities -/

/-- A name refers to nothing. -/
theorem closed_rename (h : d.graph.Closed L) (hid : .entity id ∈ L) (name : String) :
    (d.rename id name).graph.Closed L :=
  h.modify_of_detail hid fun _ => ⟨rfl, rfl⟩

/-- A protocol is renamed at most. -/
theorem closed_separateProtocol (h : d.graph.Closed L) (hid : .entity id ∈ L)
    (interfaces : List (String × String)) :
    (d.separateProtocol interfaces id).graph.Closed L := by
  obtain heq | ⟨e, -, heq⟩ := d.separateProtocol_cases interfaces id <;> rw [heq]
  · exact h
  · exact closed_rename h hid _

/-! ### Passes -/

namespace IsClosedOn

/-- What is left after the reserved methods have gone refers to no more than before. -/
theorem dropReserved (h : d.IsClosedOn L) : d.dropReserved.IsClosedOn L :=
  h.forListed_same (fun d id => (d.drops_dropReservedFrom id).same)
    fun hL hid => (drops_dropReservedFrom _ _).closed hL hid

theorem applyReserved (h : d.IsClosedOn L) : d.applyReserved.IsClosedOn L :=
  h.dropReserved.forListed_same (same_separateProtocol d.dropReserved.interfaceNames)
    fun hL hid => closed_separateProtocol hL hid d.dropReserved.interfaceNames

/-- Folding needs no wider set, and the list becomes shorter. -/
theorem foldCategories (h : d.IsClosedOn L) : d.foldCategories.IsClosedOn L := by
  refine ⟨(h.forListed_same same_foldCategory closed_foldCategory).closed, fun id hid => ?_⟩
  exact h.listed id (List.mem_filter.mp hid).1

/-- What is left after the redundant members have gone refers to no more than before. -/
theorem dropRedundant (h : d.IsClosedOn L) : d.dropRedundant.IsClosedOn L :=
  h.forListed_same (fun d id => (d.drops_dropRedundantFrom id).same)
    fun hL hid => (drops_dropRedundantFrom _ _).closed hL hid

/-- Names refer to nothing, and the list stays as it is. -/
theorem resolveClashes (h : d.IsClosedOn L) : d.resolveClashes.IsClosedOn L := by
  refine ⟨resolveClashes_induction (motive := fun d' => d'.graph.Closed L) h.closed
    fun _ hd' id hid name => closed_rename hd' (h.listed id hid) name, ?_⟩
  rw [(same_resolveClashes d).listed]
  exact h.listed

end IsClosedOn

end Draft

end InteropGraph
