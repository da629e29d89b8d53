import InteropGraph.Proofs.Pass.Closed

/-!
# Aligned accessors keep graphs closed

The ancestors of an entity in a closed set are in the set, and so are the bare methods that they
list. A property that is added around such methods refers to nothing else and has no declaration;
the set with the property is closed, and the ancestor may list it.
-/

namespace InteropGraph.Draft

variable {d : Draft} {L : Set Node} {id : EntityId}

/-- The chain of bases does not lead out of a closed set. -/
theorem mem_ancestors (h : d.graph.Closed L) (hid : .entity id ∈ L) :
    ∀ a ∈ d.graph.ancestors id, .entity a ∈ L := by
  intro a ha
  rcases List.mem_append.mp ha with ha | ha
  · -- the base is among the references of the interface
    obtain ⟨e, he, hbase⟩ := Option.bind_eq_some_iff.mp (Option.mem_toList.mp ha)
    refine h.of_entity hid he _ ?_
    unfold Entity.base? at hbase
    split at hbase
    next m base params hdetail =>
      rw [hdetail, hbase]
      exact List.mem_append_right _ (List.mem_singleton.mpr rfl)
    next => cases hbase
  · cases hm : d.graph.members? id with
    | none =>
      rw [hm] at ha
      cases ha
    | some m =>
      rw [hm] at ha
      exact h.of_members hid hm _ (List.mem_map.mpr ⟨a, List.mem_append_right _ ha, rfl⟩)

/-- Flags are no references. -/
theorem closed_markAccessors {g : Graph} (h : g.Closed L) {accessors : List EntityId}
    (haccessors : ∀ i ∈ accessors, .entity i ∈ L) : (g.markAccessors accessors).Closed L :=
  Graph.markAccessors_induction (motive := fun g' => g'.Closed L) h fun _ h' i hi =>
    h'.modify_of_detail (haccessors i hi) fun _ => ⟨rfl, rfl⟩

/-- The set has to be widened by the new property only, since the accessors are in it. -/
theorem closed_wrapAccessors (h : d.graph.Closed L) {ancestor : EntityId}
    (hancestor : .entity ancestor ∈ L) (module : String) (template : Entity)
    {getter setter : Option EntityId}
    (haccessors : ∀ i ∈ getter.toList ++ setter.toList, .entity i ∈ L) :
    ∃ L', d.Widens (d.wrapAccessors ancestor module template getter setter) L L' ∧
      (d.wrapAccessors ancestor module template getter setter).graph.Closed L' := by
  let accessors := getter.toList ++ setter.toList
  let isOptional := accessors.any fun m => (d.graph.entity? m).any (·.flags.optional)
  let property := template.propertyAround module getter setter isOptional
  let marked := d.graph.markAccessors accessors
  have hmarked : marked.Closed L := closed_markAccessors h haccessors
  have hreferences : ∀ n ∈ property.detail.references, n ∈ L := by
    intro n hn
    rw [show property.detail.references = accessors.map .entity from List.map_append.symm] at hn
    obtain ⟨i, hi, rfl⟩ := List.mem_map.mp hn
    exact haccessors i hi
  -- the property is the one new node of the set
  have hinserted := hmarked.insertEntity (e := property) rfl hreferences
  have hretains := retains_wrapAccessors d ancestor module template getter setter
  refine ⟨L ∪ {.entity (marked.insert property).1}, ⟨Set.subset_union_left, ?_, hretains⟩, ?_⟩
  · rintro n (hn | rfl)
    · exact .inl hn
    · obtain ⟨e, he, hsame⟩ := (Graph.Retains.mapMembers (marked.insert property).2 ancestor
        _).kept (by rw [Graph.entity?_insert, if_pos rfl])
      exact .inr ⟨_, e, rfl, he, hsame.source, hsame.kind⟩
  refine hinserted.mapMembers (Or.inl hancestor) fun m hm n hn => ?_
  obtain ⟨i, hi, rfl⟩ := List.mem_map.mp hn
  -- the members are those that there were, less the accessors and with the property
  have hi' : i ∈ m.all ++ m.protocols ∨ i = (marked.insert property).1 := by
    rcases List.mem_append.mp hi with hi | hi
    · obtain ⟨k, hk⟩ := Members.mem_all_iff.mp hi
      have hold (h : i ∈ m.list k) : i ∈ m.all ++ m.protocols :=
        List.mem_append_left _ (Members.mem_all_iff.mpr ⟨k, h⟩)
      cases k with
      | instanceMethods => exact .inl (hold (List.mem_filter.mp hk).1)
      | staticMethods | staticProperties => exact .inl (hold hk)
      | instanceProperties =>
        refine (List.mem_append.mp ((Graph.mem_sortByName _).mp hk)).imp hold fun hk => ?_
        exact List.mem_singleton.mp hk
    · exact .inl (List.mem_append_right _ hi)
  rcases hi' with hi' | rfl
  · exact hinserted.of_members (.inl hancestor) hm _ (List.mem_map.mpr ⟨i, hi', rfl⟩)
  · exact .inr rfl

/-- An ancestor gets one property at most. -/
theorem closed_addProperty (h : d.graph.Closed L) {ancestor : EntityId}
    (hancestor : .entity ancestor ∈ L) (template : Entity) (selectors : String × String) :
    ∃ L', d.Widens (d.addProperty template selectors ancestor) L L' ∧
      (d.addProperty template selectors ancestor).graph.Closed L' := by
  obtain ⟨heq, -⟩ | ⟨e, m, _, _, ⟨he, hm, -, rfl, rfl, -⟩, heq⟩ :=
    d.addProperty_cases template selectors ancestor <;> rw [heq]
  · exact ⟨L, .same (.refl d), h⟩
  · have hmembers : d.graph.members? ancestor = some m := by
      rw [Graph.members?, he]
      exact hm
    have hbare {selector : String} {i : EntityId}
        (hi : d.graph.bareMethod? m.instanceMethods selector = some i) : .entity i ∈ L := by
      have hmem : i ∈ m.all ++ m.protocols := by
        simp only [Members.all, List.mem_append]
        exact .inl (.inl (.inl (.inl (List.mem_of_find?_eq_some hi))))
      exact h.of_members hancestor hmembers _ (List.mem_map.mpr ⟨i, hmem, rfl⟩)
    refine closed_wrapAccessors h hancestor _ _ fun i hi => ?_
    rcases List.mem_append.mp hi with hi | hi
    · exact hbare (Option.mem_toList.mp hi)
    · exact hbare (Option.mem_toList.mp hi)

/-- An interface may add a property to each of its ancestors, which are in the set. -/
theorem closed_alignAncestors (h : d.graph.Closed L) (hid : .entity id ∈ L) :
    ∃ L', d.Widens (d.alignAncestors id) L L' ∧ (d.alignAncestors id).graph.Closed L' := by
  refine alignAncestors_induction
    (motive := fun d' => ∃ L', d.Widens d' L L' ∧ d'.graph.Closed L') ⟨L, .same (.refl d), h⟩
    fun d' hd' template selectors a ha => ?_
  obtain ⟨L₁, hL₁, h₁⟩ := hd'
  obtain ⟨L₂, hL₂, h₂⟩ :=
    closed_addProperty h₁ (hL₁.subset (mem_ancestors h hid a ha)) template selectors
  exact ⟨L₂, hL₁.trans hL₂, h₂⟩

/-- What is reported changes no graph. -/
theorem closed_reportOverloads (h : d.graph.Closed L) : (d.reportOverloads id).graph.Closed L := by
  unfold reportOverloads
  cases d.graph.entity? id with
  | none => exact h
  | some e => exact h

/-- An interface with its turn adds properties first; then it loses methods, for which no set has to
grow. -/
theorem closed_alignInterface (h : d.graph.Closed L) (hid : .entity id ∈ L) :
    ∃ L', d.Widens (d.alignInterface id) L L' ∧ (d.alignInterface id).graph.Closed L' := by
  unfold alignInterface
  by_cases hkind : d.graph.kind? id = some .interface
  · rw [if_pos hkind]
    obtain ⟨L', hwidens, h'⟩ := closed_alignAncestors h hid
    have hrest := (drops_dropShadowed (d.alignAncestors id) id).retains.trans
      (retains_reportOverloads _ id)
    refine ⟨L', hwidens.trans (.same hrest), closed_reportOverloads ?_⟩
    exact (drops_dropShadowed _ id).closed h' (hwidens.subset hid)
  · rw [if_neg hkind]
    exact ⟨L, .same (.refl d), h⟩

/-- The set is widened by all properties that are added. -/
theorem IsClosedOn.alignAccessors (h : d.IsClosedOn L) :
    ∃ L', d.Widens d.alignAccessors L L' ∧ d.alignAccessors.IsClosedOn L' :=
  h.forListed listed_alignInterface closed_alignInterface

/-- All five passes keep the graph closed, with no more entities that have a source. -/
theorem IsClosedOn.finish (h : d.IsClosedOn L) :
    ∃ L', d.Widens d.finish L L' ∧ d.finish.IsClosedOn L' := by
  obtain ⟨L', hwidens, h'⟩ := h.applyReserved.foldCategories.dropRedundant.alignAccessors
  have hbefore : d.Retains d.applyReserved.foldCategories.dropRedundant :=
    ((retains_applyReserved d).trans (retains_foldCategories _)).trans (retains_dropRedundant _)
  refine ⟨L', ((Widens.same hbefore).trans hwidens).trans (.same (retains_resolveClashes _)), ?_⟩
  exact h'.resolveClashes

/-- All five passes keep the graph closed on some set. -/
theorem IsClosed.finish (h : d.IsClosed) : d.finish.IsClosed := by
  obtain ⟨L, hclosed, hlisted⟩ := h
  obtain ⟨L', -, h'⟩ := IsClosedOn.finish ⟨hclosed, hlisted⟩
  exact ⟨L', h'.closed, h'.listed⟩

end InteropGraph.Draft
