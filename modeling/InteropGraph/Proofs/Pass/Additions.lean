import InteropGraph.Proofs.Graph.Selectors
import InteropGraph.Proofs.Pass.Rearranged
import Mathlib.Data.List.Nodup
import Mathlib.Data.List.Perm.Basic

/-!
# Added properties

What the alignment of accessors does to a graph is determined by the properties that it adds
(`Draft.Aligns`). A container to which properties are added lists them instead of the methods that
they wrap; these methods are known as accessors from then on. Static methods may get lost. There is
nothing else that changes.
-/

namespace InteropGraph

/-- A property that has been added to a container. -/
structure Addition where
  container : EntityId
  property : EntityId
  name : String
  bridgeName : String
  getter : Option EntityId
  setter : Option EntityId

/-- The methods that an added property wraps. -/
def Addition.accessors (a : Addition) : List EntityId :=
  a.getter.toList ++ a.setter.toList

/-- The methods that any of the added properties wraps. -/
def wrapped (added : List Addition) : List EntityId :=
  added.flatMap Addition.accessors

/-- The properties that have been added to one container. -/
def additionsTo (added : List Addition) (x : EntityId) : List Addition :=
  added.filter (·.container = x)

/-- What a row of additions wraps is what each of its two halves wraps. -/
theorem wrapped_append (added others : List Addition) :
    wrapped (added ++ others) = wrapped added ++ wrapped others :=
  List.flatMap_append

theorem additionsTo_append (added others : List Addition) (x : EntityId) :
    additionsTo (added ++ others) x = additionsTo added x ++ additionsTo others x :=
  List.filter_append _ _

/-- The additions to a container are those that name it. -/
theorem mem_additionsTo {added : List Addition} {a : Addition} {x : EntityId} :
    a ∈ additionsTo added x ↔ a ∈ added ∧ a.container = x := by
  rw [additionsTo, List.mem_filter, decide_eq_true_iff]

/-! ### One container -/

/-- What becomes of the members of a container when properties are added to it. -/
structure Members.Aligned (m : Members) (added : List Addition) (m' : Members) : Prop where
  instanceMethods : m'.instanceMethods = m.instanceMethods.filter (· ∉ wrapped added)
  staticMethods : m'.staticMethods.Sublist m.staticMethods
  instanceProperties :
    m'.instanceProperties.Perm (m.instanceProperties ++ added.map Addition.property)
  undisturbed : added = [] → m'.instanceProperties = m.instanceProperties
  staticProperties : m'.staticProperties = m.staticProperties
  protocols : m'.protocols = m.protocols

/-- Without additions the lists stay as they are. -/
theorem Members.Aligned.refl (m : Members) : m.Aligned [] m where
  instanceMethods := (List.filter_eq_self.mpr fun _ _ => decide_eq_true List.not_mem_nil).symm
  staticMethods := List.Sublist.refl _
  instanceProperties := by rw [List.map_nil, List.append_nil]
  undisturbed _ := rfl
  staticProperties := rfl
  protocols := rfl

/-- What has been taken off in the first row of steps has not come back in the second, and the
properties come last in the order in which they are added. -/
theorem Members.Aligned.trans {m₁ m₂ m₃ : Members} {added others : List Addition}
    (h : m₁.Aligned added m₂) (h' : m₂.Aligned others m₃) : m₁.Aligned (added ++ others) m₃ where
  instanceMethods := by
    rw [h'.instanceMethods, h.instanceMethods, List.filter_filter, wrapped_append]
    congr 1
    funext i
    rw [← Bool.decide_and, decide_eq_decide, List.mem_append, not_or, and_comm]
  staticMethods := h'.staticMethods.trans h.staticMethods
  instanceProperties := by
    rw [List.map_append, ← List.append_assoc]
    exact h'.instanceProperties.trans (h.instanceProperties.append_right _)
  undisturbed hnil := by
    obtain ⟨hadded, hothers⟩ := List.append_eq_nil_iff.mp hnil
    exact (h'.undisturbed hothers).trans (h.undisturbed hadded)
  staticProperties := h'.staticProperties.trans h.staticProperties
  protocols := h'.protocols.trans h.protocols

/-! ### One entity -/

/-- An entity with all its lists of members empty. -/
def Entity.withoutMembers (e : Entity) : Entity :=
  e.mapMembers fun _ => .empty

/-- An entity, now known as an accessor if `b` says so. -/
def Entity.markedIf (e : Entity) (b : Bool) : Entity :=
  { e with flags := { e.flags with accessor := e.flags.accessor || b } }

/-- Changes of its members cannot be seen of an entity without them. -/
theorem Entity.withoutMembers_mapMembers (e : Entity) (f : Members → Members) :
    (e.mapMembers f).withoutMembers = e.withoutMembers := by
  unfold withoutMembers mapMembers
  cases e.detail <;> rfl

/-- Properties list nothing. -/
theorem Entity.mapMembers_of_property {e : Entity} {getter setter : Option EntityId}
    (h : e.detail = .property getter setter) (f : Members → Members) : e.mapMembers f = e := by
  cases e
  cases h
  rfl

theorem Entity.markedIf_false (e : Entity) : e.markedIf false = e := by
  unfold markedIf
  rw [Bool.or_false]

/-- An accessor that is marked stays marked. -/
theorem Entity.markedIf_markedIf (e : Entity) (b b' : Bool) :
    (e.markedIf b).markedIf b' = e.markedIf (b || b') := by
  unfold markedIf
  rw [Bool.or_assoc]

/-- What becomes of the entity at `x`: but for its members it stays as it is, and it is marked if it
is wrapped. -/
structure Entity.Aligned (e : Entity) (added : List Addition) (x : EntityId) (e' : Entity) :
    Prop where
  same : e'.withoutMembers = (e.markedIf (x ∈ wrapped added)).withoutMembers
  members : ∀ {m}, e.members? = some m →
    ∃ m', e'.members? = some m' ∧ m.Aligned (additionsTo added x) m'

namespace Entity.Aligned

variable {e e' : Entity} {added : List Addition} {x : EntityId}

theorem refl (e : Entity) (x : EntityId) : e.Aligned [] x e where
  same := by rw [wrapped, List.flatMap_nil, decide_eq_false List.not_mem_nil, markedIf_false]
  members hm := ⟨_, hm, .refl _⟩

theorem trans {e₁ e₂ e₃ : Entity} {others : List Addition} (h : e₁.Aligned added x e₂)
    (h' : e₂.Aligned others x e₃) : e₁.Aligned (added ++ others) x e₃ where
  same := by
    have hmarked : (e₂.markedIf (x ∈ wrapped others)).withoutMembers =
        (e₂.withoutMembers).markedIf (x ∈ wrapped others) := rfl
    rw [h'.same, hmarked, h.same, wrapped_append]
    show ((e₁.markedIf _).markedIf _).withoutMembers = _
    rw [markedIf_markedIf, ← Bool.decide_or]
    simp only [List.mem_append]
  members hm := by
    obtain ⟨m₂, hm₂, hmembers⟩ := h.members hm
    obtain ⟨m₃, hm₃, hmembers'⟩ := h'.members hm₂
    exact ⟨m₃, hm₃, additionsTo_append added others x ▸ hmembers.trans hmembers'⟩

/-- Being marked as an accessor is no new origin, and neither are other members. -/
theorem sameOrigin (h : e.Aligned added x e') : e.SameOrigin e' where
  source := (congrArg Entity.source h.same :)
  module := (congrArg Entity.module h.same :)
  name := (congrArg Entity.name h.same :)
  static := (congrArg (·.flags.static) h.same :)
  outline := (congrArg Entity.detail h.same :)

theorem bridgeName (h : e.Aligned added x e') : e'.bridgeName = e.bridgeName :=
  (congrArg Entity.bridgeName h.same :)

/-- An entity is known as an accessor if it was, or if an addition wraps it. -/
theorem accessor (h : e.Aligned added x e') :
    e'.flags.accessor = (e.flags.accessor || decide (x ∈ wrapped added)) :=
  (congrArg (·.flags.accessor) h.same :)

/-- What is listed in the end comes from what has been listed. -/
theorem exists_members (h : e.Aligned added x e') {m' : Members} (hm' : e'.members? = some m') :
    ∃ m, e.members? = some m ∧ m.Aligned (additionsTo added x) m' := by
  obtain ⟨m, hm⟩ :=
    Entity.exists_members?_iff.mpr (h.sameOrigin.kind ▸ Entity.kind_of_members? hm')
  obtain ⟨m₁, hm₁, hmembers⟩ := h.members hm
  obtain rfl : m₁ = m' := Option.some.inj (hm₁.symm.trans hm')
  exact ⟨m, hm, hmembers⟩

end Entity.Aligned

/-! ### A graph with an added property -/

namespace Graph

/-- Every accessor is marked once. -/
theorem entity?_markAccessors (g : Graph) (accessors : List EntityId) (x : EntityId) :
    (g.markAccessors accessors).entity? x =
      (g.entity? x).map (·.markedIf (x ∈ accessors)) := by
  unfold markAccessors
  induction accessors generalizing g with
  | nil =>
    simp only [List.foldl_nil, List.not_mem_nil, decide_false, Entity.markedIf_false,
      Option.map_id_fun', id]
  | cons i accessors ih =>
    rw [List.foldl_cons, ih, entity?_modify]
    by_cases hx : x = i
    · subst hx
      rw [if_pos rfl, Option.map_map, decide_eq_true List.mem_cons_self]
      congr 1
      funext e
      have hmarked : e.asAccessor = e.markedIf true := by
        unfold Entity.markedIf
        rw [Bool.or_true]
        rfl
      rw [Function.comp_apply, hmarked, Entity.markedIf_markedIf, Bool.true_or]
    · rw [if_neg hx]
      simp only [List.mem_cons, hx, false_or]

/-- A bare method is one of the list that has the selector and is no accessor yet. -/
theorem of_bareMethod? {g : Graph} {methods : List EntityId} {selector : String} {i : EntityId}
    (h : g.bareMethod? methods selector = some i) : i ∈ methods ∧
      ∃ e, g.entity? i = some e ∧ e.name = selector ∧ e.flags.accessor = false := by
  refine ⟨List.mem_of_find?_eq_some h, ?_⟩
  have hi := List.find?_some h
  obtain ⟨e, he, hbare⟩ := Option.any_eq_true _ _ |>.mp hi
  rw [Bool.and_eq_true, decide_eq_true_iff, Bool.not_eq_true'] at hbare
  exact ⟨e, he, hbare⟩

/-- The graph with an added property: the methods are marked, the property is in a place of its own,
and one container has other members. -/
def withProperty (g : Graph) (accessors : List EntityId) (property : Entity) (container : EntityId)
    (f : Members → Members) : Graph :=
  ((g.markAccessors accessors).insert property).2.mapMembers container f

/-- The place of the next entity. -/
def nextPlace (g : Graph) (accessors : List EntityId) (property : Entity) : EntityId :=
  ((g.markAccessors accessors).insert property).1

/-- A property is put where nothing is yet. -/
theorem entity?_nextPlace (g : Graph) (accessors : List EntityId) (property : Entity) :
    g.entity? (g.nextPlace accessors property) = none := by
  have hnone := (g.markAccessors accessors).entity?_insert_fst property
  rw [entity?_markAccessors] at hnone
  exact Option.map_eq_none_iff.mp hnone

/-- Adding a property touches its own place, its container and its accessors. -/
theorem entity?_withProperty (g : Graph) (accessors : List EntityId) (property : Entity)
    {getter setter : Option EntityId} (hproperty : property.detail = .property getter setter)
    (container : EntityId) (f : Members → Members) (x : EntityId) :
    (g.withProperty accessors property container f).entity? x =
      if x = g.nextPlace accessors property then some property
      else (g.entity? x).map fun e =>
        if x = container then (e.markedIf (x ∈ accessors)).mapMembers f
        else e.markedIf (x ∈ accessors) := by
  have hinserted (x : EntityId) : ((g.markAccessors accessors).insert property).2.entity? x =
      if x = g.nextPlace accessors property then some property
      else (g.entity? x).map (·.markedIf (x ∈ accessors)) := by
    rw [entity?_insert, entity?_markAccessors]
    rfl
  unfold withProperty Graph.mapMembers
  rw [entity?_modify, hinserted, hinserted]
  by_cases hx : x = container
  · subst hx
    rw [if_pos rfl]
    by_cases hplace : x = g.nextPlace accessors property
    · rw [if_pos hplace, if_pos hplace, Option.map_some, Entity.mapMembers_of_property hproperty]
    · rw [if_neg hplace, if_neg hplace, Option.map_map]
      simp only [if_true, Function.comp_def]
  · rw [if_neg hx]
    simp only [if_neg hx]

end Graph

/-- What becomes of an entity when a property is added. -/
theorem Graph.aligned_withProperty {g : Graph} {property : Entity} {a : Addition}
    {f : Members → Members} (hproperty : property.detail = .property a.getter a.setter)
    (hf : ∀ m : Members, m.Aligned [a] (f m)) {x : EntityId} {e : Entity}
    (he : g.entity? x = some e) :
    ∃ e', (g.withProperty a.accessors property a.container f).entity? x = some e' ∧
      e.Aligned [a] x e' := by
  have hwrapped : wrapped [a] = a.accessors := List.flatMap_singleton ..
  have hx : x ≠ g.nextPlace a.accessors property := by
    rintro rfl
    cases (g.entity?_nextPlace a.accessors property).symm.trans he
  refine ⟨_, (g.entity?_withProperty a.accessors property hproperty a.container f x).trans
    (by rw [if_neg hx, he, Option.map_some]), ?_⟩
  by_cases hcontainer : x = a.container
  · subst hcontainer
    rw [if_pos rfl]
    have hadded : additionsTo [a] a.container = [a] := List.filter_cons_of_pos (decide_eq_true rfl)
    refine ⟨?_, fun {m} hm => ⟨f m, ?_, ?_⟩⟩
    · rw [Entity.withoutMembers_mapMembers, hwrapped]
    · rw [Entity.members?_mapMembers]
      show e.members?.map f = _
      rw [hm]
      rfl
    · rw [hadded]
      exact hf m
  · rw [if_neg hcontainer]
    have hadded : additionsTo [a] x = [] :=
      List.filter_cons_of_neg (by rwa [decide_eq_true_iff, eq_comm])
    refine ⟨by rw [hwrapped], fun {m} hm => ⟨m, hm, ?_⟩⟩
    rw [hadded]
    exact .refl m

/-! ### Drafts -/

/-- The property has been added on the way from `g` to `g'`: it is new, and it wraps one or two
methods that its container lists and that were not known as accessors, where the container has had
no property of its name. -/
structure Addition.Holds (a : Addition) (g g' : Graph) : Prop where
  vacant : g.entity? a.property = none
  made : ∃ e, g'.entity? a.property = some e ∧ e.detail = .property a.getter a.setter ∧
    e.name = a.name ∧ e.bridgeName = a.bridgeName ∧ e.source = none
  wraps : a.accessors ≠ []
  container : ∃ m, g.members? a.container = some m ∧ (∀ i ∈ a.accessors, i ∈ m.instanceMethods) ∧
    ∀ q ∈ m.instanceProperties, ∀ e, g.entity? q = some e → e.name ≠ a.name
  bare : ∀ i ∈ a.accessors, ∀ e, g.entity? i = some e → e.flags.accessor = false
  marked : ∀ i ∈ a.accessors, ∃ e, g'.entity? i = some e ∧ e.flags.accessor = true

namespace Draft

/-- The draft `d'` comes from `d` by the alignment of accessors, in which properties have been
added. -/
structure Aligns (d : Draft) (added : List Addition) (d' : Draft) : Prop where
  listed : d'.listed = d.listed
  types : d'.graph.types = d.graph.types
  /-- The added properties are counted. -/
  count : d'.report.addedProperties = d.report.addedProperties + added.length
  /-- What has been there is there with what has been added to it. -/
  entity : ∀ {x e}, d.graph.entity? x = some e →
    ∃ e', d'.graph.entity? x = some e' ∧ e.Aligned added x e'
  /-- What has not been there is an added property, and only marked if it is wrapped itself. -/
  new : ∀ {x e'}, d'.graph.entity? x = some e' → d.graph.entity? x = none →
    x ∈ added.map Addition.property ∧ (e'.flags.accessor = true → x ∈ wrapped added)
  holds : ∀ a ∈ added, a.Holds d.graph d'.graph
  /-- No place is used for two properties. -/
  places : (added.map Addition.property).Nodup
  /-- No container is given two properties of one name. -/
  names : added.Pairwise fun a b => a.container = b.container → a.name ≠ b.name

namespace Aligns

variable {d d' : Draft} {added : List Addition} {x : EntityId}

theorem refl (d : Draft) : d.Aligns [] d where
  listed := rfl
  types := rfl
  count := rfl
  entity he := ⟨_, he, .refl _ _⟩
  new he' he := nomatch he'.symm.trans he
  holds _ ha := nomatch ha
  places := List.nodup_nil
  names := .nil

/-- The properties that are added have no source, and all else has its origin still. -/
theorem retains (h : d.Aligns added d') : d.graph.Retains d'.graph where
  kept he := by
    obtain ⟨e', he', haligned⟩ := h.entity he
    exact ⟨e', he', haligned.sameOrigin⟩
  original {x e' source} he' hsource := by
    cases he : d.graph.entity? x with
    | none =>
      -- added properties have no source
      obtain ⟨a, ha, rfl⟩ := List.mem_map.mp (h.new he' he).1
      obtain ⟨e₁, he₁, -, -, -, hnone⟩ := (h.holds a ha).made
      obtain rfl : e' = e₁ := Option.some.inj (he'.symm.trans he₁)
      cases hsource.symm.trans hnone
    | some e =>
      obtain ⟨e₁, he₁, haligned⟩ := h.entity he
      obtain rfl : e₁ = e' := Option.some.inj (he₁.symm.trans he')
      exact ⟨e, rfl, haligned.sameOrigin⟩

/-- Only properties are new. -/
theorem exists_entity (h : d.Aligns added d') {e' : Entity} (he' : d'.graph.entity? x = some e')
    (hkind : e'.kind ≠ .property) : ∃ e, d.graph.entity? x = some e ∧ e.Aligned added x e' := by
  cases he : d.graph.entity? x with
  | none =>
    obtain ⟨a, ha, rfl⟩ := List.mem_map.mp (h.new he' he).1
    obtain ⟨e, he, hdetail, -⟩ := (h.holds a ha).made
    obtain rfl : e = e' := Option.some.inj (he.symm.trans he')
    exact absurd (congrArg Detail.kind hdetail) hkind
  | some e =>
    obtain ⟨e₁, he₁, haligned⟩ := h.entity he
    obtain rfl : e₁ = e' := Option.some.inj (he₁.symm.trans he')
    exact ⟨e, rfl, haligned⟩

/-- A container has its members still, aligned with what has been added to it. -/
theorem members (h : d.Aligns added d') {m : Members} (hm : d.graph.members? x = some m) :
    ∃ m', d'.graph.members? x = some m' ∧ m.Aligned (additionsTo added x) m' := by
  obtain ⟨e, he, hm⟩ := Graph.members?_eq_some_iff.mp hm
  obtain ⟨e', he', haligned⟩ := h.entity he
  obtain ⟨m', hm', hmembers⟩ := haligned.members hm
  exact ⟨m', Graph.members?_eq_some_iff.mpr ⟨e', he', hm'⟩, hmembers⟩

/-- No container is new. -/
theorem exists_members (h : d.Aligns added d') {m' : Members}
    (hm' : d'.graph.members? x = some m') :
    ∃ m, d.graph.members? x = some m ∧ m.Aligned (additionsTo added x) m' := by
  obtain ⟨e', he', hm'⟩ := Graph.members?_eq_some_iff.mp hm'
  have hkind : e'.kind ≠ .property := by
    rcases Entity.kind_of_members? hm' with h | h | h <;> rw [h] <;> decide
  obtain ⟨e, he, haligned⟩ := h.exists_entity he' hkind
  obtain ⟨m, hm, hmembers⟩ := haligned.exists_members hm'
  exact ⟨m, Graph.members?_eq_some_iff.mpr ⟨e, he, hm⟩, hmembers⟩

/-- Properties stay where they are listed. -/
theorem keeps_property (h : d.Aligns added d') {p : EntityId}
    (hp : d.graph.Lists x .instanceProperties p) : d'.graph.Lists x .instanceProperties p := by
  obtain ⟨m, hm, hp⟩ := hp
  obtain ⟨m', hm', hmembers⟩ := h.members hm
  exact ⟨m', hm', hmembers.instanceProperties.mem_iff.mpr (List.mem_append_left _ hp)⟩

/-- Whatever there is stays of its kind. -/
theorem kind (h : d.Aligns added d') {k : Kind} (hkind : d.graph.kind? x = some k) :
    d'.graph.kind? x = some k := by
  obtain ⟨e, he, hkind⟩ := Option.map_eq_some_iff.mp hkind
  obtain ⟨e', he', haligned⟩ := h.entity he
  rw [Graph.kind?, he', Option.map_some, haligned.sameOrigin.kind, hkind]

/-- Nothing is new except properties. -/
theorem kind_iff (h : d.Aligns added d') {k : Kind} (hk : k ≠ .property) :
    d'.graph.kind? x = some k ↔ d.graph.kind? x = some k := by
  refine ⟨fun hkind => ?_, h.kind⟩
  obtain ⟨e', he', rfl⟩ := Option.map_eq_some_iff.mp hkind
  obtain ⟨e, he, haligned⟩ := h.exists_entity he' hk
  rw [Graph.kind?, he, Option.map_some, haligned.sameOrigin.kind]

/-- A property that is listed has been listed there, or has been added. -/
theorem lists_or_added (h : d.Aligns added d') {p : EntityId}
    (hp : d'.graph.Lists x .instanceProperties p) :
    d.graph.Lists x .instanceProperties p ∨ ∃ a ∈ added, a.container = x ∧ a.property = p := by
  obtain ⟨m', hm', hp⟩ := hp
  obtain ⟨m, hm, hmembers⟩ := h.exists_members hm'
  rcases List.mem_append.mp (hmembers.instanceProperties.mem_iff.mp hp) with hp | hp
  · exact .inl ⟨m, hm, hp⟩
  · obtain ⟨a, ha, rfl⟩ := List.mem_map.mp hp
    obtain ⟨ha, hcontainer⟩ := mem_additionsTo.mp ha
    exact .inr ⟨a, ha, hcontainer, rfl⟩

/-- Interfaces have the same ancestors. -/
theorem ancestors (h : d.Aligns added d') (hkind : d.graph.kind? x = some .interface) :
    d'.graph.ancestors x = d.graph.ancestors x := by
  obtain ⟨e, he, hkind⟩ := Option.map_eq_some_iff.mp hkind
  obtain ⟨m, hm⟩ := Entity.exists_members?_iff.mpr (.inl hkind)
  obtain ⟨e', he', haligned⟩ := h.entity he
  obtain ⟨m', hm', hmembers⟩ := haligned.members hm
  unfold Graph.ancestors Graph.members?
  rw [he, he', Option.bind_some, Option.bind_some, Option.bind_some, Option.bind_some, hm, hm',
    Option.map_some, Option.map_some, hmembers.protocols, haligned.sameOrigin.base?]

/-- A container lists the properties that have been added to it. -/
theorem lists_property (h : d.Aligns added d') {a : Addition} (ha : a ∈ added) :
    d'.graph.Lists a.container .instanceProperties a.property := by
  obtain ⟨m, hm, -⟩ := (h.holds a ha).container
  obtain ⟨m', hm', hmembers⟩ := h.members hm
  refine ⟨m', hm', hmembers.instanceProperties.mem_iff.mpr (List.mem_append_right _ ?_)⟩
  exact List.mem_map.mpr ⟨a, mem_additionsTo.mpr ⟨ha, rfl⟩, rfl⟩

/-- An addition of the first row holds in the end: nothing that is added later takes its property
off. -/
theorem holds_left {d₁ d₂ d₃ : Draft} {others : List Addition} (h : d₁.Aligns added d₂)
    (h' : d₂.Aligns others d₃) {a : Addition} (ha : a ∈ added) : a.Holds d₁.graph d₃.graph := by
  have hholds := h.holds a ha
  obtain ⟨e, he, hdetail, hname, hbridge, hsource⟩ := hholds.made
  obtain ⟨e', he', haligned⟩ := h'.entity he
  exact { hholds with
    made := ⟨e', he', haligned.sameOrigin.property hdetail, haligned.sameOrigin.name.trans hname,
      haligned.bridgeName.trans hbridge, haligned.sameOrigin.source.trans hsource⟩
    marked := fun i hi => by
      obtain ⟨method, hmethod, hmarked⟩ := hholds.marked i hi
      obtain ⟨method', hmethod', haligned'⟩ := h'.entity hmethod
      exact ⟨method', hmethod', by rw [haligned'.accessor, hmarked, Bool.true_or]⟩ }

/-- An addition of the second row was possible at the beginning: the accessors were bare then too.
-/
theorem holds_right {d₁ d₂ d₃ : Draft} {others : List Addition} (h : d₁.Aligns added d₂)
    (h' : d₂.Aligns others d₃) {a : Addition} (ha : a ∈ others) : a.Holds d₁.graph d₃.graph := by
  have hholds := h'.holds a ha
  refine ⟨h.retains.vacant hholds.vacant, hholds.made, hholds.wraps, ?_, fun i hi e he => ?_,
    hholds.marked⟩
  · obtain ⟨m₂, hm₂, haccessors, hunlisted⟩ := hholds.container
    obtain ⟨m₁, hm₁, hmembers⟩ := h.exists_members hm₂
    refine ⟨m₁, hm₁, fun i hi => ?_, fun q hq e he => ?_⟩
    · have hi₂ := haccessors i hi
      rw [hmembers.instanceMethods] at hi₂
      exact (List.mem_filter.mp hi₂).1
    · obtain ⟨e₂, he₂, haligned⟩ := h.entity he
      rw [← haligned.sameOrigin.name]
      refine hunlisted q (hmembers.instanceProperties.mem_iff.mpr ?_) e₂ he₂
      exact List.mem_append_left _ hq
  · obtain ⟨e₂, he₂, haligned⟩ := h.entity he
    have hbare := hholds.bare i hi e₂ he₂
    rw [haligned.accessor, Bool.or_eq_false_iff] at hbare
    exact hbare.1

/-- Additions in a row. -/
theorem trans {d₁ d₂ d₃ : Draft} {others : List Addition} (h : d₁.Aligns added d₂)
    (h' : d₂.Aligns others d₃) : d₁.Aligns (added ++ others) d₃ where
  listed := h'.listed.trans h.listed
  types := h'.types.trans h.types
  count := by rw [h'.count, h.count, List.length_append, Nat.add_assoc]
  entity he := by
    obtain ⟨e₂, he₂, haligned⟩ := h.entity he
    obtain ⟨e₃, he₃, haligned'⟩ := h'.entity he₂
    exact ⟨e₃, he₃, haligned.trans haligned'⟩
  new {x e₃} he₃ he₁ := by
    rw [List.map_append, wrapped_append, List.mem_append, List.mem_append]
    cases he₂ : d₂.graph.entity? x with
    | none =>
      obtain ⟨hmem, hmarked⟩ := h'.new he₃ he₂
      exact ⟨.inr hmem, fun h => .inr (hmarked h)⟩
    | some e₂ =>
      obtain ⟨hmem, hmarked⟩ := h.new he₂ he₁
      obtain ⟨e, he, haligned⟩ := h'.entity he₂
      obtain rfl : e = e₃ := Option.some.inj (he.symm.trans he₃)
      refine ⟨.inl hmem, fun haccessor => ?_⟩
      rw [haligned.accessor, Bool.or_eq_true, decide_eq_true_iff] at haccessor
      exact haccessor.imp_left hmarked
  holds a ha := by
    rcases List.mem_append.mp ha with ha | ha
    · exact h.holds_left h' ha
    · exact h.holds_right h' ha
  places := by
    rw [List.map_append]
    refine List.Nodup.append h.places h'.places fun i hi hi' => ?_
    obtain ⟨a, ha, rfl⟩ := List.mem_map.mp hi
    obtain ⟨b, hb, hplace⟩ := List.mem_map.mp hi'
    obtain ⟨e, he, -⟩ := (h.holds a ha).made
    cases he.symm.trans (hplace ▸ (h'.holds b hb).vacant)
  names := by
    refine List.pairwise_append.mpr ⟨h.names, h'.names, fun a ha b hb hcontainer => ?_⟩
    -- the container lists the first property when it is given the second
    obtain ⟨m, hm, hmem⟩ := h.lists_property ha
    obtain ⟨e, he, -, hname, -⟩ := (h.holds a ha).made
    obtain ⟨m₂, hm₂, -, hunlisted⟩ := (h'.holds b hb).container
    rw [hcontainer] at hm
    obtain rfl : m = m₂ := Option.some.inj (hm.symm.trans hm₂)
    exact hname ▸ hunlisted a.property hmem e he

end Aligns

/-! ### Steps -/

variable {d d' : Draft}

/-- A container loses static methods at most. -/
theorem aligns_mapMembers {id : EntityId} {f : Members → Members}
    (hlisted : d'.listed = d.listed) (hgraph : d'.graph = d.graph.mapMembers id f)
    (hreport : d'.report.addedProperties = d.report.addedProperties)
    (hmembers : ∀ m, d.graph.members? id = some m → m.Aligned [] (f m)) : d.Aligns [] d' where
  listed := hlisted
  types := by rw [hgraph]; rfl
  count := hreport
  entity {x e} he := by
    rw [hgraph, Graph.mapMembers, Graph.entity?_modify]
    by_cases hx : x = id
    · subst hx
      rw [if_pos rfl, he]
      refine ⟨_, rfl, ?_, fun {m} hm => ⟨f m, ?_, ?_⟩⟩
      · rw [Entity.withoutMembers_mapMembers]
        exact (Entity.Aligned.refl e x).same
      · rw [Entity.members?_mapMembers, hm]
        rfl
      · exact hmembers m (Graph.members?_eq_some_iff.mpr ⟨e, he, hm⟩)
    · rw [if_neg hx]
      exact ⟨e, he, .refl e x⟩
  new {x e'} he' he := by
    rw [hgraph, Graph.mapMembers, Graph.entity?_modify] at he'
    by_cases hx : x = id
    · rw [if_pos hx, ← hx, he] at he'
      cases he'
    · rw [if_neg hx, he] at he'
      cases he'
  holds _ ha := nomatch ha
  places := List.nodup_nil
  names := .nil

/-- An interface that loses static methods has nothing added to it. -/
theorem aligns_dropShadowed (d : Draft) (id : EntityId) : d.Aligns [] (d.dropShadowed id) := by
  unfold dropShadowed
  cases hm : d.graph.members? id with
  | none => exact .refl d
  | some m =>
    refine aligns_mapMembers rfl rfl rfl fun m' hm' => ?_
    obtain rfl : m = m' := Option.some.inj (hm.symm.trans hm')
    exact { Members.Aligned.refl m with staticMethods := List.filter_sublist }

/-- A report adds nothing. -/
theorem aligns_reportOverloads (d : Draft) (id : EntityId) :
    d.Aligns [] (d.reportOverloads id) := by
  unfold reportOverloads
  cases d.graph.entity? id with
  | none => exact .refl d
  | some e => exact { Aligns.refl d with listed := rfl, count := rfl }

/-! ### The step that adds a property -/

/-- The members of a container that lists a property instead of its accessors. -/
def listProperty (g : Graph) (accessors : List EntityId) (place : EntityId) (m : Members) :
    Members :=
  { m with
    instanceMethods := m.instanceMethods.filter (· ∉ accessors)
    instanceProperties := g.sortByName (m.instanceProperties ++ [place]) }

/-- One property is listed last, and its accessors are not listed as methods any more. -/
theorem aligned_listProperty (a : Addition) (g : Graph) (m : Members) :
    m.Aligned [a] (listProperty g a.accessors a.property m) :=
  { Members.Aligned.refl m with
    instanceMethods := by
      rw [wrapped, List.flatMap_singleton]
      rfl
    instanceProperties := g.sortByName_perm _
    undisturbed := nofun }

/-- The property that is added around some accessors. -/
def propertyOf (d : Draft) (template : Entity) (module : String) (getter setter : Option EntityId) :
    Entity :=
  template.propertyAround module getter setter
    ((getter.toList ++ setter.toList).any fun m => (d.graph.entity? m).any (·.flags.optional))

/-- The addition of that property to an ancestor. -/
def additionOf (d : Draft) (ancestor : EntityId) (module : String) (template : Entity)
    (getter setter : Option EntityId) : Addition where
  container := ancestor
  property := d.graph.nextPlace (getter.toList ++ setter.toList)
    (d.propertyOf template module getter setter)
  name := template.name
  bridgeName := template.bridgeName
  getter := getter
  setter := setter

section Wraps

variable {template e : Entity} {selectors : String × String} {ancestor : EntityId} {m : Members}
  {getter setter : Option EntityId}

/-- The property is where it has been added. -/
theorem entity?_additionOf (module : String) :
    (d.wrapAccessors ancestor module template getter setter).graph.entity?
      (d.additionOf ancestor module template getter setter).property =
        some (d.propertyOf template module getter setter) :=
  (d.graph.entity?_withProperty _ (d.propertyOf template module getter setter) rfl _ _ _).trans
    (if_pos rfl)

/-- Everywhere else there is what has been there. -/
theorem entity?_wrapAccessors_eq_none {module : String} {x : EntityId}
    (hx : x ≠ (d.additionOf ancestor module template getter setter).property)
    (hnone : d.graph.entity? x = none) :
    (d.wrapAccessors ancestor module template getter setter).graph.entity? x = none := by
  refine (d.graph.entity?_withProperty _ (d.propertyOf template module getter setter) rfl _ _
    x).trans ?_
  rw [hnone]
  exact if_neg hx

/-- What is known of the methods that a property is added around. -/
theorem Wraps.accessor (h : d.Wraps template selectors ancestor e m getter setter) {i : EntityId}
    (hi : i ∈ getter.toList ++ setter.toList) : i ∈ m.instanceMethods ∧
      ∃ method, d.graph.entity? i = some method ∧ method.flags.accessor = false ∧
        (method.name = selectors.1 ∨ method.name = selectors.2) := by
  rcases List.mem_append.mp hi with hi | hi
  · obtain ⟨hmem, method, hmethod, hname, hbare⟩ :=
      Graph.of_bareMethod? (h.getter_eq.trans (Option.mem_toList.mp hi))
    exact ⟨hmem, method, hmethod, hbare, .inl hname⟩
  · obtain ⟨hmem, method, hmethod, hname, hbare⟩ :=
      Graph.of_bareMethod? (h.setter_eq.trans (Option.mem_toList.mp hi))
    exact ⟨hmem, method, hmethod, hbare, .inr hname⟩

/-- What has been there is there with the one addition. -/
theorem aligned_wrapAccessors (module : String) {x : EntityId} {e : Entity}
    (he : d.graph.entity? x = some e) :
    ∃ e', (d.wrapAccessors ancestor module template getter setter).graph.entity? x = some e' ∧
      e.Aligned [d.additionOf ancestor module template getter setter] x e' :=
  Graph.aligned_withProperty (a := d.additionOf ancestor module template getter setter) rfl
    (aligned_listProperty _ _) he

/-- What is put into the graph for a property is one addition that holds. -/
theorem Wraps.holds (h : d.Wraps template selectors ancestor e m getter setter) :
    (d.additionOf ancestor e.module template getter setter).Holds d.graph
      (d.wrapAccessors ancestor e.module template getter setter).graph where
  vacant := d.graph.entity?_nextPlace _ (d.propertyOf template e.module getter setter)
  made := ⟨_, entity?_additionOf e.module, rfl, rfl, rfl, rfl⟩
  wraps := h.nonempty
  container := by
    refine ⟨m, Graph.members?_eq_some_iff.mpr ⟨e, h.entity, h.members⟩,
      fun i hi => (h.accessor hi).1, fun q hq e he hname => ?_⟩
    have hlisted := List.any_eq_false.mp h.unlisted q hq
    rw [he, Option.any_some, decide_eq_true_iff] at hlisted
    exact hlisted hname
  bare i hi e he := by
    obtain ⟨-, method, hmethod, hbare, -⟩ := h.accessor hi
    obtain rfl : method = e := Option.some.inj (hmethod.symm.trans he)
    exact hbare
  marked i hi := by
    obtain ⟨-, method, hmethod, -⟩ := h.accessor hi
    obtain ⟨method', hmethod', haligned⟩ := aligned_wrapAccessors e.module hmethod
    refine ⟨method', hmethod', ?_⟩
    rw [haligned.accessor, wrapped, List.flatMap_singleton, decide_eq_true hi, Bool.or_true]

/-- A property that is added around methods is the one addition. -/
theorem Wraps.aligns (h : d.Wraps template selectors ancestor e m getter setter) :
    d.Aligns [d.additionOf ancestor e.module template getter setter]
      (d.wrapAccessors ancestor e.module template getter setter) where
  listed := rfl
  types := Graph.markAccessors_induction (motive := fun g => g.types = d.graph.types) rfl
    fun _ h _ _ => h
  count := rfl
  entity he := aligned_wrapAccessors e.module he
  new {x e'} he' he := by
    by_cases hx : x = (d.additionOf ancestor e.module template getter setter).property
    · subst hx
      obtain rfl := Option.some.inj ((entity?_additionOf e.module).symm.trans he')
      exact ⟨List.mem_singleton.mpr rfl, nofun⟩
    · cases (entity?_wrapAccessors_eq_none hx he).symm.trans he'
  holds a ha := List.mem_singleton.mp ha ▸ h.holds
  places := List.nodup_singleton _
  names := List.pairwise_singleton _ _

end Wraps

/-- At most one property is added. It has the names of the template, and its accessors have the
selectors. -/
theorem aligns_addProperty (d : Draft) (template : Entity) (selectors : String × String)
    (ancestor : EntityId) : ∃ added, d.Aligns added (d.addProperty template selectors ancestor) ∧
      ∀ a ∈ added, a.container = ancestor ∧ a.name = template.name ∧
        a.bridgeName = template.bridgeName ∧ ∀ i ∈ a.accessors, ∃ method,
          d.graph.entity? i = some method ∧
            (method.name = selectors.1 ∨ method.name = selectors.2) := by
  obtain ⟨h, -⟩ | ⟨e, m, getter, setter, hwraps, h⟩ :=
    d.addProperty_cases template selectors ancestor <;> rw [h]
  · exact ⟨[], .refl d, nofun⟩
  · refine ⟨_, hwraps.aligns, fun a ha => ?_⟩
    obtain rfl := List.mem_singleton.mp ha
    refine ⟨rfl, rfl, rfl, fun i hi => ?_⟩
    obtain ⟨-, method, hmethod, -, hselector⟩ := hwraps.accessor hi
    exact ⟨method, hmethod, hselector⟩

/-! ### Loops -/

/-- Steps that add properties do so in a row. -/
theorem aligns_foldl {α : Type} {step : Draft → α → Draft}
    (hstep : ∀ (d : Draft) a, ∃ added, d.Aligns added (step d a)) (d : Draft) (as : List α) :
    ∃ added, d.Aligns added (as.foldl step d) :=
  rel_foldl (R := fun d d' => ∃ added, d.Aligns added d') (fun d => ⟨[], .refl d⟩)
    (fun ⟨added, h⟩ ⟨others, h'⟩ => ⟨added ++ others, h.trans h'⟩) (fun d a _ => hstep d a) d

/-- One property of an interface adds properties to ancestors only. -/
theorem aligns_alignProperty (ancestors : List EntityId) (d : Draft) (p : EntityId) :
    ∃ added, d.Aligns added (alignProperty ancestors d p) := by
  unfold alignProperty
  split
  next selectors template _ _ =>
    refine aligns_foldl (fun d' c => ?_) d ancestors
    obtain ⟨added, h, -⟩ := aligns_addProperty d' template selectors c
    exact ⟨added, h⟩
  next => exact ⟨[], .refl d⟩

end Draft

end InteropGraph
