import InteropGraph.Proofs.Pass.Additions

/-!
# Added properties answer properties below

When accessors are aligned, a property is added to an immediate ancestor of a listed interface, for
a property that the interface has (`Addition.Answers`). Nothing else happens to the graph than that
properties are added (`Draft.Aligns`): a method that a container does not list any more is wrapped
by one of the properties that have been added to the container.
-/

namespace InteropGraph

variable {old old' g g' : Graph} {x p : EntityId} {a : Addition}

/-- The added property is an answer to the property at `p`, which the interface at `x` lists: it has
the same names, it belongs to an immediate ancestor, and the methods that it wraps have selectors of
the property. -/
structure Addition.Answers (a : Addition) (old g : Graph) (x p : EntityId) : Prop where
  interface : g.kind? x = some .interface
  ancestor : a.container ∈ g.ancestors x
  /-- No interface gets an answer to a property of its own. -/
  other : a.container ≠ x
  listed : g.Lists x .instanceProperties p
  named : ∃ e, g.entity? p = some e ∧ e.name = a.name ∧ e.bridgeName = a.bridgeName
  /-- What is a presumed selector now has been one in the graph `old`. -/
  selectors : ∀ i ∈ a.accessors, ∃ e, g.entity? i = some e ∧
    (g.Offers p e.name ∨ old.Presumes g p e.name)

/-- An answer to a property that has been there from an earlier time on. -/
theorem Addition.Answers.earlier (h : a.Answers old' g x p) (hold : old.Retains old') :
    a.Answers old g x p :=
  { h with
    selectors := fun i hi => by
      obtain ⟨e, he, hselector⟩ := h.selectors i hi
      exact ⟨e, he, hselector.imp_right (·.earlier hold)⟩ }

namespace Draft

variable {d d' d'' : Draft} {added others : List Addition} {ids : List EntityId}

/-- An answer stays one while other properties are added. -/
theorem Aligns.answers (h : d.Aligns added d') (ha : a.Answers old d.graph x p) :
    a.Answers old d'.graph x p where
  interface := h.kind ha.interface
  ancestor := h.ancestors ha.interface ▸ ha.ancestor
  other := ha.other
  listed := h.keeps_property ha.listed
  named := by
    obtain ⟨e, he, hname, hbridge⟩ := ha.named
    obtain ⟨e', he', haligned⟩ := h.entity he
    exact ⟨e', he', haligned.sameOrigin.name.trans hname, haligned.bridgeName.trans hbridge⟩
  selectors i hi := by
    obtain ⟨e, he, hselector⟩ := ha.selectors i hi
    obtain ⟨e', he', haligned⟩ := h.entity he
    refine ⟨e', he', ?_⟩
    rw [haligned.sameOrigin.name]
    exact hselector.imp (·.retained h.retains) (·.retained h.retains)

/-- `d'` comes from `d` by the alignment of the interfaces in a list, and every property that has
been added is an answer to a property of one of them. -/
structure AlignsFor (d : Draft) (ids : List EntityId) (added : List Addition) (d' : Draft) :
    Prop where
  aligns : d.Aligns added d'
  answers : ∀ a ∈ added, ∃ x ∈ ids, ∃ p, a.Answers d.graph d'.graph x p

namespace AlignsFor

/-- Further additions that all answer to something listed. -/
theorem append (h : d.AlignsFor ids added d') (h' : d'.Aligns others d'')
    (hnew : ∀ a ∈ others, ∃ x ∈ ids, ∃ p, a.Answers d.graph d''.graph x p) :
    d.AlignsFor ids (added ++ others) d'' where
  aligns := h.aligns.trans h'
  answers a ha := by
    rcases List.mem_append.mp ha with ha | ha
    · obtain ⟨x, hx, p, hanswers⟩ := h.answers a ha
      exact ⟨x, hx, p, h'.answers hanswers⟩
    · exact hnew a ha

theorem trans (h : d.AlignsFor ids added d') (h' : d'.AlignsFor ids others d'') :
    d.AlignsFor ids (added ++ others) d'' :=
  h.append h'.aligns fun a ha => by
    obtain ⟨x, hx, p, hanswers⟩ := h'.answers a ha
    exact ⟨x, hx, p, hanswers.earlier h.aligns.retains⟩

/-- An answer to a property of an interface is one for every list with the interface. -/
theorem mono {ids' : List EntityId} (h : d.AlignsFor ids added d') (hids : ids ⊆ ids') :
    d.AlignsFor ids' added d' where
  aligns := h.aligns
  answers a ha := by
    obtain ⟨x, hx, p, hanswers⟩ := h.answers a ha
    exact ⟨x, hids hx, p, hanswers⟩

theorem of_aligns_nil (h : d.Aligns [] d') : d.AlignsFor ids [] d' :=
  ⟨h, nofun⟩

end AlignsFor

/-- The properties that are added for one property of an interface answer it. -/
theorem alignsFor_alignProperty (hkind : d.graph.kind? x = some .interface)
    (hp : d.graph.Lists x .instanceProperties p) :
    ∃ added, d.AlignsFor [x] added (alignProperty (d.graph.ancestors x) d p) := by
  unfold alignProperty
  split
  next selectors template hselectors htemplate =>
    refine List.foldlRecOn (motive := fun d' => ∃ added, d.AlignsFor [x] added d') _ _
      ⟨[], .of_aligns_nil (.refl d)⟩ fun d' ⟨added, h⟩ ancestor hancestor => ?_
    obtain ⟨others, haligns, hothers⟩ := aligns_addProperty d' template selectors ancestor
    refine ⟨added ++ others, h.append haligns fun b hb => ⟨x, List.mem_singleton.mpr rfl, p, ?_⟩⟩
    obtain ⟨rfl, hname, hbridge, haccessors⟩ := hothers b hb
    obtain ⟨e, he, haligned⟩ := h.aligns.entity htemplate
    -- it is an answer already in the graph that the property is added to
    refine haligns.answers ⟨?_, ?_, ?_, h.aligns.keeps_property hp, ⟨e, he, ?_, ?_⟩, fun i hi => ?_⟩
    · exact h.aligns.kind hkind
    · exact h.aligns.ancestors hkind ▸ hancestor
    · rintro rfl
      obtain ⟨m, hm, -, hunlisted⟩ := (haligns.holds b hb).container
      obtain ⟨m', hm', hmem⟩ := h.aligns.keeps_property hp
      obtain rfl : m = m' := Option.some.inj (hm.symm.trans hm')
      exact hunlisted p hmem e he (haligned.sameOrigin.name.trans hname.symm)
    · exact haligned.sameOrigin.name.trans hname.symm
    · exact haligned.bridgeName.trans hbridge.symm
    · obtain ⟨method, hmethod, hselector⟩ := haccessors i hi
      exact ⟨method, hmethod, (Graph.offers_or_presumes hselectors hselector).imp
        (·.retained h.aligns.retains) (·.retained h.aligns.retains)⟩
  next => exact ⟨[], .of_aligns_nil (.refl d)⟩

/-- The additions for one interface, property by property. -/
theorem alignsFor_alignAncestors (hkind : d.graph.kind? x = some .interface) :
    ∃ added, d.AlignsFor [x] added (d.alignAncestors x) := by
  unfold alignAncestors
  cases hm : d.graph.members? x with
  | none => exact ⟨[], .of_aligns_nil (.refl d)⟩
  | some m =>
    refine List.foldlRecOn (motive := fun d' => ∃ added, d.AlignsFor [x] added d') _ _
      ⟨[], .of_aligns_nil (.refl d)⟩ fun d' ⟨added, h⟩ p hp => ?_
    -- the interface has kept its ancestors and its properties
    rw [← h.aligns.ancestors hkind]
    obtain ⟨others, h'⟩ := alignsFor_alignProperty (h.aligns.kind hkind)
      (h.aligns.keeps_property ⟨m, hm, hp⟩)
    exact ⟨added ++ others, h.trans h'⟩

/-- An interface in its turn adds answers only; what it takes off its own list is no addition. -/
theorem alignsFor_alignInterface (d : Draft) (x : EntityId) :
    ∃ added, d.AlignsFor [x] added (d.alignInterface x) := by
  unfold alignInterface
  by_cases hkind : d.graph.kind? x = some .interface
  · rw [if_pos hkind]
    obtain ⟨added, h⟩ := alignsFor_alignAncestors hkind
    exact ⟨_, (h.trans (.of_aligns_nil (aligns_dropShadowed _ x))).trans
      (.of_aligns_nil (aligns_reportOverloads _ x))⟩
  · rw [if_neg hkind]
    exact ⟨[], .of_aligns_nil (.refl d)⟩

/-- A row of interfaces adds answers to properties of one of them. -/
theorem alignsFor_foldl (d : Draft) (ids : List EntityId) :
    ∃ added, d.AlignsFor ids added (ids.foldl alignInterface d) :=
  rel_foldl (R := fun d d' => ∃ added, d.AlignsFor ids added d')
    (fun d => ⟨[], .of_aligns_nil (.refl d)⟩)
    (fun ⟨added, h⟩ ⟨others, h'⟩ => ⟨added ++ others, h.trans h'⟩)
    (fun d x hx => by
      obtain ⟨added, h⟩ := alignsFor_alignInterface d x
      exact ⟨added, h.mono (List.cons_subset.mpr ⟨hx, List.nil_subset ids⟩)⟩) d

/-- **Added properties.** What the alignment of accessors does to a graph is that it adds
properties, each of which is an answer to a property of a listed interface. No method of an instance
gets lost: what a container does not list any more is wrapped by a property that was added to it. -/
theorem alignAccessors_adds (d : Draft) : ∃ added, d.Aligns added d.alignAccessors ∧
    ∀ a ∈ added, ∃ x ∈ d.listed, ∃ p, a.Answers d.graph d.alignAccessors.graph x p := by
  obtain ⟨added, h⟩ := alignsFor_foldl d d.listed
  exact ⟨added, h.aligns, h.answers⟩

end Draft

end InteropGraph
