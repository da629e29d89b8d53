import InteropGraph.Proofs.AddedProperties
import InteropGraph.Proofs.Graph.Bases

/-!
# Shadowed static methods

A static method of an interface is removed if its name is a selector of a class property above the
interface. What an interface inherits never changes while accessors are aligned, so it does not
matter when its turn comes. But not every one of these selectors belongs to an accessor: the setter
of a property that cannot be set is presumed.
-/

namespace InteropGraph

/-- Only interfaces have a base. -/
theorem Entity.kind_of_base? {e : Entity} {id : EntityId} (h : e.base? = some id) :
    e.kind = .interface := by
  unfold base? at h
  unfold kind
  cases hdetail : e.detail <;> rw [hdetail] at h <;> cases h
  rfl

/-- There is a class property at `p` that the interface at `x` inherits. -/
def Graph.InheritsProperty (g : Graph) (x p : EntityId) : Prop :=
  ∃ c, g.Above x c ∧ g.Lists c .staticProperties p

namespace Draft

variable {d d' : Draft} {added : List Addition} {x y i p : EntityId} {s : String}

namespace Aligns

/-- Interfaces keep their bases, and there are no new ones. -/
theorem base_eq (h : d.Aligns added d') : d'.graph.Base = d.graph.Base := by
  funext x y
  refine propext ⟨fun hbase => ?_, fun hbase => ?_⟩
  · obtain ⟨e', he', hbase⟩ := Option.bind_eq_some_iff.mp hbase
    obtain ⟨e, he, haligned⟩ := h.exists_entity he' (Entity.kind_of_base? hbase ▸ by decide)
    exact Option.bind_eq_some_iff.mpr ⟨e, he, haligned.sameOrigin.base?.symm.trans hbase⟩
  · obtain ⟨e, he, hbase⟩ := Option.bind_eq_some_iff.mp hbase
    obtain ⟨e', he', haligned⟩ := h.entity he
    exact Option.bind_eq_some_iff.mpr ⟨e', he', haligned.sameOrigin.base?.trans hbase⟩

/-- Interfaces inherit the class properties that they have inherited. -/
theorem inheritsProperty_iff (h : d.Aligns added d') :
    d'.graph.InheritsProperty x p ↔ d.graph.InheritsProperty x p := by
  constructor
  · rintro ⟨c, ⟨hchain, hne, -⟩, m', hm', hp⟩
    obtain ⟨m, hm, hmembers⟩ := h.exists_members hm'
    obtain ⟨e, he, -⟩ := Graph.members?_eq_some_iff.mp hm
    have hp : p ∈ m'.staticProperties := hp
    rw [hmembers.staticProperties] at hp
    exact ⟨c, ⟨h.base_eq ▸ hchain, hne, e, he⟩, m, hm, hp⟩
  · rintro ⟨c, ⟨hchain, hne, e, he⟩, m, hm, hp⟩
    obtain ⟨e', he', -⟩ := h.entity he
    obtain ⟨m', hm', hmembers⟩ := h.members hm
    have hp : p ∈ m.staticProperties := hp
    rw [← hmembers.staticProperties] at hp
    exact ⟨c, ⟨h.base_eq.symm ▸ hchain, hne, e', he'⟩, m', hm', hp⟩

/-- No static methods are added. -/
theorem lists_static (h : d.Aligns added d') (hi : d'.graph.Lists x .staticMethods i) :
    d.graph.Lists x .staticMethods i := by
  obtain ⟨m', hm', hi⟩ := hi
  obtain ⟨m, hm, hmembers⟩ := h.exists_members hm'
  exact ⟨m, hm, hmembers.staticMethods.subset hi⟩

end Aligns

/-! ### One interface -/

/-- What is collected for an interface are the selectors of the class properties it inherits. -/
theorem mem_inheritedAccessors_iff : s ∈ d.inheritedAccessors x ↔
    ∃ p selectors, d.graph.InheritsProperty x p ∧ d.graph.accessorSelectors? p = some selectors ∧
      (s = selectors.1 ∨ s = selectors.2) := by
  unfold inheritedAccessors
  constructor
  · intro hs
    obtain ⟨c, hc, hs⟩ := List.mem_flatMap.mp hs
    obtain ⟨p, hp, hs⟩ := List.mem_flatMap.mp hs
    cases hm : d.graph.members? c with
    | none =>
      rw [hm] at hp
      cases hp
    | some m =>
      rw [hm] at hp
      cases hselectors : d.graph.accessorSelectors? p with
      | none =>
        rw [hselectors] at hs
        cases hs
      | some selectors =>
        rw [hselectors] at hs
        refine ⟨p, selectors, ⟨c, Graph.mem_bases_iff.mp hc, m, hm, hp⟩, hselectors, ?_⟩
        simpa only [List.mem_cons, List.not_mem_nil, or_false] using hs
  · rintro ⟨p, selectors, ⟨c, hc, m, hm, hp⟩, hselectors, hs⟩
    refine List.mem_flatMap.mpr ⟨c, Graph.mem_bases_iff.mpr hc, List.mem_flatMap.mpr ⟨p, ?_, ?_⟩⟩
    · rw [hm]
      exact hp
    · rw [hselectors]
      simpa only [List.mem_cons, List.not_mem_nil, or_false] using hs

/-- No static methods get lost when a property is added. -/
theorem staticMethods_wrapAccessors (d : Draft) (ancestor : EntityId) (module : String)
    (template : Entity) (getter setter : Option EntityId) (y : EntityId) :
    ((d.wrapAccessors ancestor module template getter setter).graph.members? y).map
      Members.staticMethods = (d.graph.members? y).map Members.staticMethods := by
  let marked := d.graph.markAccessors (getter.toList ++ setter.toList)
  have hmarked : marked.members? y = d.graph.members? y :=
    Graph.markAccessors_induction (motive := fun g => g.members? y = d.graph.members? y) rfl
      fun g h i _ => (g.bind_entity?_modify (f := Entity.asAccessor) i (fun _ => rfl) y).trans h
  have hinserted {property : Entity} (hnone : property.members? = none) :
      (marked.insert property).2.members? y = d.graph.members? y :=
    (marked.bind_entity?_insert hnone y).trans hmarked
  unfold wrapAccessors
  dsimp only
  rw [Graph.members?_mapMembers]
  by_cases hy : y = ancestor
  · subst hy
    rw [if_pos rfl, Option.map_map]
    exact congrArg (Option.map Members.staticMethods) (hinserted rfl)
  · rw [if_neg hy]
    exact congrArg (Option.map Members.staticMethods) (hinserted rfl)

/-- Adding properties leaves the static methods alone. -/
theorem lists_static_alignAncestors :
    (d.alignAncestors x).graph.Lists y .staticMethods i ↔ d.graph.Lists y .staticMethods i := by
  have hlists (g : Graph) : g.Lists y .staticMethods i ↔
      ∃ methods, (g.members? y).map Members.staticMethods = some methods ∧ i ∈ methods := by
    constructor
    · rintro ⟨m, hm, hi⟩
      exact ⟨m.staticMethods, by rw [hm, Option.map_some], hi⟩
    · rintro ⟨methods, hmethods, hi⟩
      obtain ⟨m, hm, rfl⟩ := Option.map_eq_some_iff.mp hmethods
      exact ⟨m, hm, hi⟩
  have hsame : ((d.alignAncestors x).graph.members? y).map Members.staticMethods =
      (d.graph.members? y).map Members.staticMethods := by
    refine alignAncestors_induction (motive := fun d' =>
      (d'.graph.members? y).map Members.staticMethods =
        (d.graph.members? y).map Members.staticMethods) rfl fun d' h template selectors a _ => ?_
    obtain ⟨h', -⟩ | ⟨_, _, _, _, -, h'⟩ := d'.addProperty_cases template selectors a <;> rw [h']
    · exact h
    · exact (staticMethods_wrapAccessors ..).trans h
  rw [hlists, hlists, hsame]

/-- A static method is dropped from the interface if its name has been collected. -/
theorem lists_static_dropShadowed : (d.dropShadowed x).graph.Lists y .staticMethods i ↔
    d.graph.Lists y .staticMethods i ∧ (y = x → ∀ e, d.graph.entity? i = some e →
      e.name ∉ d.inheritedAccessors x) := by
  unfold dropShadowed
  cases hm : d.graph.members? x with
  | none =>
    refine ⟨fun h => ⟨h, ?_⟩, And.left⟩
    rintro rfl
    obtain ⟨m, hm', -⟩ := h
    cases hm.symm.trans hm'
  | some m =>
    have hfilter (e? : Option Entity) : (e?.all fun e => decide (e.name ∉ d.inheritedAccessors x)) =
        true ↔ ∀ e, e? = some e → e.name ∉ d.inheritedAccessors x := by
      cases e? <;> simp
    unfold Graph.Lists
    dsimp only [replaceMembers]
    rw [Graph.members?_mapMembers]
    by_cases hy : y = x
    · subst hy
      rw [if_pos rfl, hm, Option.map_some]
      simp only [Option.some.injEq, exists_eq_left', forall_const]
      show i ∈ m.staticMethods.filter _ ↔ i ∈ m.staticMethods ∧ _
      rw [List.mem_filter, hfilter]
    · rw [if_neg hy]
      simp only [hy, false_implies, and_true]

/-- An interface in its turn loses the static methods that an ancestor has an accessor for, and no
other container loses any. -/
theorem lists_static_alignInterface (hkind : d.graph.kind? x = some .interface) :
    (d.alignInterface x).graph.Lists y .staticMethods i ↔
      d.graph.Lists y .staticMethods i ∧
        (y = x → ∀ e, (d.alignAncestors x).graph.entity? i = some e →
          e.name ∉ (d.alignAncestors x).inheritedAccessors x) := by
  unfold alignInterface
  rw [if_pos hkind, graph_reportOverloads, lists_static_dropShadowed, lists_static_alignAncestors]

/-- A static method only gets lost in the turn of its interface, and if its name is collected. -/
theorem collected_of_lost (hi : d.graph.Lists y .staticMethods i)
    (hlost : ¬(d.alignInterface x).graph.Lists y .staticMethods i) :
    y = x ∧ d.graph.kind? x = some .interface ∧
      ∃ e, (d.alignAncestors x).graph.entity? i = some e ∧
        e.name ∈ (d.alignAncestors x).inheritedAccessors x := by
  by_cases hkind : d.graph.kind? x = some .interface
  · rw [lists_static_alignInterface hkind, not_and] at hlost
    have hcollected := hlost hi
    push Not at hcollected
    obtain ⟨hy, e, he, hname⟩ := hcollected
    exact ⟨hy, hkind, e, he, hname⟩
  · unfold alignInterface at hlost
    rw [if_neg hkind] at hlost
    exact absurd hi hlost

/-! ### All interfaces in turn -/

/-- A static method that gets lost is lost when the turn of its interface has come. -/
theorem exists_turn {ids : List EntityId} (hi : d.graph.Lists x .staticMethods i)
    (hlost : ¬(ids.foldl alignInterface d).graph.Lists x .staticMethods i) :
    ∃ before after, ids = before ++ x :: after ∧
      (before.foldl alignInterface d).graph.Lists x .staticMethods i ∧
        ¬((before.foldl alignInterface d).alignInterface x).graph.Lists x .staticMethods i := by
  induction ids generalizing d with
  | nil => exact absurd hi hlost
  | cons y ids ih =>
    by_cases hkept : (d.alignInterface y).graph.Lists x .staticMethods i
    · obtain ⟨before, after, rfl, hturn⟩ := ih hkept hlost
      exact ⟨y :: before, after, rfl, hturn⟩
    · obtain ⟨rfl, -⟩ := collected_of_lost hi hkept
      exact ⟨[], ids, rfl, hi, hkept⟩

/-- What has happened until the ancestors of a listed interface are aligned, what else happens in
the turn of the interface, and what comes after it. -/
theorem aligns_around {before after : List EntityId} (hlisted : d.listed = before ++ x :: after)
    (hkind : (before.foldl alignInterface d).graph.kind? x = some .interface) :
    let turn := before.foldl alignInterface d
    (∃ added, d.Aligns added (turn.alignAncestors x)) ∧
      (∃ added, (turn.alignAncestors x).Aligns added (turn.alignInterface x)) ∧
        ∃ added, (turn.alignInterface x).Aligns added d.alignAccessors := by
  obtain ⟨_, hbefore⟩ := alignsFor_foldl d before
  obtain ⟨_, hturn⟩ := alignsFor_alignAncestors hkind
  obtain ⟨later, hafter⟩ :=
    alignsFor_foldl ((before.foldl alignInterface d).alignInterface x) after
  refine ⟨⟨_, hbefore.aligns.trans hturn.aligns⟩, ⟨[], ?_⟩, later, ?_⟩
  · rw [alignInterface, if_pos hkind]
    exact (aligns_dropShadowed _ x).trans (aligns_reportOverloads _ x)
  · rw [alignAccessors, forListed_split hlisted]
    exact hafter.aligns

/-- **Shadowed static methods.** An interface only loses a static method if it is listed and
inherits a class property that has the name of the method for a selector, of an accessor or presumed
for one that it does not have. Every listed interface loses the methods that are exposed by such an
accessor. The walk that finds what is inherited ends on every graph. -/
theorem static_methods_shadowed (d : Draft) :
    (∀ x i, d.graph.Lists x .staticMethods i →
      ¬d.alignAccessors.graph.Lists x .staticMethods i →
        x ∈ d.listed ∧ d.graph.kind? x = some .interface ∧
          ∃ p e, d.graph.InheritsProperty x p ∧ d.alignAccessors.graph.entity? i = some e ∧
            (d.alignAccessors.graph.Offers p e.name ∨
              d.graph.Presumes d.alignAccessors.graph p e.name)) ∧
    (∀ x ∈ d.listed, d.graph.kind? x = some .interface → ∀ p, d.graph.InheritsProperty x p →
      ∀ i e, d.graph.entity? i = some e → d.graph.Offers p e.name →
        ¬d.alignAccessors.graph.Lists x .staticMethods i) ∧
    ∀ (g : Graph) (x : EntityId), g.Climbs [x] ((g.entity? x).bind Entity.base?) (g.bases x) := by
  refine ⟨fun x i hi hlost => ?_, fun x hx hkind p hp i e he hs hi => ?_, Graph.climbs_bases⟩
  · obtain ⟨before, after, hlisted, hturn, hlost⟩ := exists_turn hi hlost
    obtain ⟨-, hkind, e, he, hname⟩ := collected_of_lost hturn hlost
    obtain ⟨_, hturning⟩ := alignsFor_foldl d before
    obtain ⟨⟨_, hbefore⟩, ⟨_, hrest⟩, _, hafter⟩ := aligns_around hlisted hkind
    obtain ⟨p, selectors, hp, hselectors, hs⟩ := mem_inheritedAccessors_iff.mp hname
    have hfinal := hrest.trans hafter
    obtain ⟨e', he', haligned⟩ := hfinal.entity he
    have hinterface : d.graph.kind? x = some .interface :=
      (hturning.aligns.kind_iff (by decide)).mp hkind
    refine ⟨hlisted ▸ List.mem_append_right _ List.mem_cons_self, hinterface, p, e',
      hbefore.inheritsProperty_iff.mp hp, he', ?_⟩
    rw [haligned.sameOrigin.name]
    rcases Graph.offers_or_presumes hselectors hs with hs | hs
    · exact .inl (hs.retained hfinal.retains)
    · exact .inr ((hs.retained hfinal.retains).earlier hbefore.retains)
  · obtain ⟨before, after, hlisted⟩ := List.append_of_mem hx
    obtain ⟨_, hturn⟩ := alignsFor_foldl d before
    have hkind := hturn.aligns.kind hkind
    obtain ⟨⟨_, hbefore⟩, -, _, hafter⟩ := aligns_around hlisted hkind
    obtain ⟨e', he', haligned⟩ := hbefore.entity he
    obtain ⟨selectors, hselectors, hs⟩ := (hs.retained hbefore.retains).selectors
    -- the name is collected in the turn of the interface
    obtain ⟨-, hname⟩ := (lists_static_alignInterface hkind).mp (hafter.lists_static hi)
    refine hname rfl e' he' (mem_inheritedAccessors_iff.mpr
      ⟨p, selectors, hbefore.inheritsProperty_iff.mpr hp, hselectors, ?_⟩)
    rwa [haligned.sameOrigin.name]

/-! ### A setter that does not exist -/

/-- A class with a class property `shared` that cannot be set, and a class below with a static
method `setShared:`. -/
def sharedService : Draft where
  graph := {
    slots := #[
      some { Entity.plain "shared" "M" (.method [⟨0⟩] []) with
        flags := { static := true, accessor := true } },
      some { Entity.plain "shared" "M" (.property (some ⟨0⟩) none) with
        flags := { static := true } },
      some (.plain "Service" "M" (.interface
        { Members.empty with staticMethods := [⟨0⟩], staticProperties := [⟨1⟩] } none [])),
      some { Entity.plain "setShared:" "M" (.method [⟨0⟩, ⟨0⟩] []) with
        flags := { static := true } },
      some (.plain "Local" "M"
        (.interface { Members.empty with staticMethods := [⟨3⟩] } (some ⟨2⟩) []))]
    types := #[.scalar .void] }
  listed := [⟨2⟩, ⟨4⟩]
  report := {}

/-- **A setter that does not exist.** The class below loses its static method, though the one
property that it inherits has no accessor of that name. -/
theorem setter_lost_sharedService : sharedService.listed.Nodup ∧
    sharedService.graph.Lists ⟨4⟩ .staticMethods ⟨3⟩ ∧
      ¬sharedService.alignAccessors.graph.Lists ⟨4⟩ .staticMethods ⟨3⟩ ∧
        ∃ e, sharedService.graph.entity? ⟨3⟩ = some e ∧ ∀ p,
          sharedService.graph.InheritsProperty ⟨4⟩ p → ¬sharedService.graph.Offers p e.name := by
  refine ⟨by decide, ⟨_, rfl, List.mem_singleton.mpr rfl⟩, ?_, _, rfl, ?_⟩
  · rintro ⟨m, hm, hi⟩
    have hempty : sharedService.alignAccessors.graph.members? ⟨4⟩ = some Members.empty := by
      decide +kernel
    obtain rfl : Members.empty = m := Option.some.inj (hempty.symm.trans hm)
    cases hi
  · rintro p ⟨c, hc, m, hm, hp⟩ hs
    have hbases : sharedService.graph.bases ⟨4⟩ = [⟨2⟩] := by decide
    obtain rfl : c = ⟨2⟩ := List.mem_singleton.mp (hbases ▸ Graph.mem_bases_iff.mpr hc)
    obtain rfl := Option.some.inj hm
    obtain rfl := List.mem_singleton.mp hp
    generalize hname : Entity.name _ = s at hs
    cases hs with
    | getter he hdetail hmethod =>
      obtain rfl := Option.some.inj he
      cases hdetail
      obtain rfl := Option.some.inj hmethod
      exact absurd hname (by decide)
    | name he hdetail =>
      obtain rfl := Option.some.inj he
      cases hdetail
    | setter he hdetail =>
      obtain rfl := Option.some.inj he
      cases hdetail

end Draft

end InteropGraph
