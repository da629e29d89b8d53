import InteropGraph.Pass.Accessors
import InteropGraph.Proofs.Pass.Retains

/-!
# The selectors of a property

A property has the selectors of its accessors, and one without a getter can be read by its own name
(`Graph.Offers`). `Graph.accessorSelectors?` gives two selectors for every property. If there is no
accessor it presumes one, by convention (`Graph.Presumes`); a property that cannot be set has no
setter, but a presumed selector for it.
-/

namespace InteropGraph

/-- Properties have no members that could change. -/
theorem Entity.SameOrigin.property {e e' : Entity} (h : e.SameOrigin e')
    {getter setter : Option EntityId} (hdetail : e.detail = .property getter setter) :
    e'.detail = .property getter setter := by
  have houtline : e'.outline = .property getter setter := by
    rw [h.outline, Entity.outline, Entity.mapMembers, hdetail]
  unfold Entity.outline Entity.mapMembers at houtline
  cases hdetail' : e'.detail <;> rw [hdetail'] at houtline <;> cases houtline
  rfl

namespace Graph

variable {g g' old : Graph} {p : EntityId} {s : String}

/-- `s` is the name of an accessor of the property at `p`, or the name of the property itself, if it
has no getter. -/
inductive Offers (g : Graph) (p : EntityId) : String → Prop
  | getter {e i method setter} (property : g.entity? p = some e)
      (detail : e.detail = .property (some i) setter) (accessor : g.entity? i = some method) :
      Offers g p method.name
  | name {e setter} (property : g.entity? p = some e) (detail : e.detail = .property none setter) :
      Offers g p e.name
  | setter {e i method getter} (property : g.entity? p = some e)
      (detail : e.detail = .property getter (some i)) (accessor : g.entity? i = some method) :
      Offers g p method.name

/-- `s` is a selector by convention for an accessor that the property at `p` does not have in the
graph `old`. -/
inductive Presumes (old g : Graph) (p : EntityId) : String → Prop
  | getter {e i setter} (property : g.entity? p = some e)
      (detail : e.detail = .property (some i) setter) (vacant : old.entity? i = none) :
      Presumes old g p e.name
  | setter {e getter setter} (property : g.entity? p = some e)
      (detail : e.detail = .property getter setter) (vacant : setter.bind old.entity? = none) :
      Presumes old g p (defaultSetter e.name)

theorem accessorSelectors?_of_property {e : Entity} {getter setter : Option EntityId}
    (he : g.entity? p = some e) (hdetail : e.detail = .property getter setter) :
    g.accessorSelectors? p = some
      (((getter.bind g.entity?).map Entity.name).getD e.name,
        ((setter.bind g.entity?).map Entity.name).getD (defaultSetter e.name)) := by
  unfold accessorSelectors?
  rw [he]
  dsimp only
  rw [hdetail]

theorem exists_property_of_accessorSelectors? {selectors : String × String}
    (h : g.accessorSelectors? p = some selectors) : ∃ e getter setter, g.entity? p = some e ∧
      e.detail = .property getter setter := by
  unfold accessorSelectors? at h
  cases he : g.entity? p with
  | none =>
    rw [he] at h
    cases h
  | some e =>
    rw [he] at h
    dsimp only at h
    split at h
    next getter setter hdetail => exact ⟨e, getter, setter, rfl, hdetail⟩
    next => cases h

/-- Every selector that is offered is found. -/
theorem Offers.selectors (h : g.Offers p s) :
    ∃ selectors, g.accessorSelectors? p = some selectors ∧ (s = selectors.1 ∨ s = selectors.2) := by
  cases h with
  | getter he hdetail hmethod =>
    refine ⟨_, accessorSelectors?_of_property he hdetail, .inl ?_⟩
    rw [Option.bind_some, hmethod]
    rfl
  | name he hdetail => exact ⟨_, accessorSelectors?_of_property he hdetail, .inl rfl⟩
  | setter he hdetail hmethod =>
    refine ⟨_, accessorSelectors?_of_property he hdetail, .inr ?_⟩
    rw [Option.bind_some, hmethod]
    rfl

/-- Whatever is found is offered or presumed. -/
theorem offers_or_presumes {selectors : String × String}
    (h : g.accessorSelectors? p = some selectors) (hs : s = selectors.1 ∨ s = selectors.2) :
    g.Offers p s ∨ g.Presumes g p s := by
  obtain ⟨e, getter, setter, he, hdetail⟩ := exists_property_of_accessorSelectors? h
  rw [accessorSelectors?_of_property he hdetail] at h
  cases h
  rcases hs with rfl | rfl
  · cases getter with
    | none => exact .inl (.name he hdetail)
    | some i =>
      rw [Option.bind_some]
      cases hi : g.entity? i with
      | none => exact .inr (.getter he hdetail hi)
      | some method => exact .inl (.getter he hdetail hi)
  · cases hi : setter.bind g.entity? with
    | none => exact .inr (.setter he hdetail hi)
    | some method =>
      obtain ⟨i, rfl, hi⟩ := Option.bind_eq_some_iff.mp hi
      exact .inl (.setter he hdetail hi)

/-- Accessors keep their names. -/
theorem Offers.retained (h : g.Offers p s) (hg : g.Retains g') : g'.Offers p s := by
  cases h with
  | getter he hdetail hmethod =>
    obtain ⟨e', he', hsame⟩ := hg.kept he
    obtain ⟨method', hmethod', hsame'⟩ := hg.kept hmethod
    rw [← hsame'.name]
    exact .getter he' (hsame.property hdetail) hmethod'
  | name he hdetail =>
    obtain ⟨e', he', hsame⟩ := hg.kept he
    rw [← hsame.name]
    exact .name he' (hsame.property hdetail)
  | setter he hdetail hmethod =>
    obtain ⟨e', he', hsame⟩ := hg.kept he
    obtain ⟨method', hmethod', hsame'⟩ := hg.kept hmethod
    rw [← hsame'.name]
    exact .setter he' (hsame.property hdetail) hmethod'

theorem Presumes.retained (h : old.Presumes g p s) (hg : g.Retains g') : old.Presumes g' p s := by
  cases h with
  | getter he hdetail hvacant =>
    obtain ⟨e', he', hsame⟩ := hg.kept he
    rw [← hsame.name]
    exact .getter he' (hsame.property hdetail) hvacant
  | setter he hdetail hvacant =>
    obtain ⟨e', he', hsame⟩ := hg.kept he
    rw [← hsame.name]
    exact .setter he' (hsame.property hdetail) hvacant

theorem Retains.vacant (hg : g.Retains g') {i : EntityId} (h : g'.entity? i = none) :
    g.entity? i = none := by
  cases hi : g.entity? i with
  | none => rfl
  | some e =>
    obtain ⟨e', he', -⟩ := hg.kept hi
    cases h.symm.trans he'

/-- What has not been there later has not been there before. -/
theorem Presumes.earlier {old' : Graph} (h : old'.Presumes g p s) (hold : old.Retains old') :
    old.Presumes g p s := by
  cases h with
  | getter he hdetail hvacant => exact .getter he hdetail (hold.vacant hvacant)
  | @setter e getter setter he hdetail hvacant =>
    refine .setter he hdetail ?_
    cases setter with
    | none => rfl
    | some i => exact hold.vacant hvacant

end Graph

end InteropGraph
