import InteropGraph.Proofs.AddedProperties
import Mathlib

/-!
# Aligned accessors

Once an interface has been aligned, none of its immediate ancestors lists a bare method for an
accessor of one of its properties, unless the ancestor has a property of the same name
(`Graph.Settled`). Later steps keep that. But a later step may give properties to the interface
itself, if there is a listed interface below it, and no interface is aligned a second time.

Mathlib is imported whole for `cbv`, which evaluates the example, and which would otherwise state
equations of its own for functions of the library.
-/

namespace InteropGraph

namespace Graph

variable {g g' : Graph} {c p : EntityId} {name s : String}

/-- The container at `c` lists a method named `s` that is not known as an accessor. -/
def ListsBare (g : Graph) (c : EntityId) (s : String) : Prop :=
  ∃ i, g.Lists c .instanceMethods i ∧ ∃ e, g.entity? i = some e ∧ e.kind = .method ∧ e.name = s ∧
    e.flags.accessor = false

/-- The container at `c` lists a property with the given name. -/
def ListsNamed (g : Graph) (c : EntityId) (name : String) : Prop :=
  ∃ q, g.Lists c .instanceProperties q ∧ ∃ e, g.entity? q = some e ∧ e.name = name

/-- The container at `c` has no bare method `s` without a property `name`. -/
def Settled (g : Graph) (c : EntityId) (name s : String) : Prop :=
  g.ListsBare c s → g.ListsNamed c name

/-- The getter or the setter of the property at `p` is a method named `s`. -/
def HasAccessor (g : Graph) (p : EntityId) (s : String) : Prop :=
  ∃ e getter setter, g.entity? p = some e ∧ e.detail = .property getter setter ∧
    ∃ i ∈ getter.toList ++ setter.toList, ∃ method, g.entity? i = some method ∧
      method.kind = .method ∧ method.name = s

/-- An accessor that is there is one that the property offers. -/
theorem HasAccessor.offers (h : g.HasAccessor p s) : g.Offers p s := by
  obtain ⟨e, getter, setter, he, hdetail, i, hi, method, hmethod, -, rfl⟩ := h
  rcases List.mem_append.mp hi with hi | hi
  · obtain rfl := Option.mem_toList.mp hi
    exact .getter he hdetail hmethod
  · obtain rfl := Option.mem_toList.mp hi
    exact .setter he hdetail hmethod

/-- If no bare method is found, none is listed. -/
theorem not_listsBare {m : Members} (hm : g.members? c = some m)
    (hnone : g.bareMethod? m.instanceMethods s = none) : ¬ g.ListsBare c s := by
  rintro ⟨i, ⟨m', hm', hi⟩, e, he, -, hname, hbare⟩
  obtain rfl : m = m' := Option.some.inj (hm.symm.trans hm')
  have hfound := List.find?_eq_none.mp hnone i hi
  rw [he, Option.any_some, hname, hbare, decide_eq_true rfl] at hfound
  exact hfound rfl

/-- The search for a property by its name finds what is listed. -/
theorem listsNamed_of_hasProperty {m : Members} (hm : g.members? c = some m)
    (hproperty : g.hasProperty m.instanceProperties name = true) : g.ListsNamed c name := by
  obtain ⟨q, hq, hname⟩ := List.any_eq_true.mp hproperty
  obtain ⟨e, he, hname⟩ := (Option.any_eq_true _ _).mp hname
  exact ⟨q, ⟨m, hm, hq⟩, e, he, of_decide_eq_true hname⟩

end Graph

namespace Draft

variable {d d' : Draft} {added : List Addition} {x p c : EntityId} {name s : String}

namespace Aligns

/-- Bare methods have been bare, and where they are. -/
theorem listsBare (h : d.Aligns added d') (hbare : d'.graph.ListsBare c s) :
    d.graph.ListsBare c s := by
  obtain ⟨i, ⟨m', hm', hi⟩, e', he', hkind, hname, haccessor⟩ := hbare
  obtain ⟨m, hm, hmembers⟩ := h.exists_members hm'
  obtain ⟨e, he, haligned⟩ := h.exists_entity he' (hkind ▸ by decide)
  refine ⟨i, ⟨m, hm, ?_⟩, e, he, haligned.sameOrigin.kind.symm.trans hkind,
    haligned.sameOrigin.name.symm.trans hname, ?_⟩
  · have hi' : i ∈ m'.instanceMethods := hi
    rw [hmembers.instanceMethods] at hi'
    exact (List.mem_filter.mp hi').1
  · rw [haligned.accessor, Bool.or_eq_false_iff] at haccessor
    exact haccessor.1

/-- A property that is listed stays listed, under its name. -/
theorem listsNamed (h : d.Aligns added d') (hnamed : d.graph.ListsNamed c name) :
    d'.graph.ListsNamed c name := by
  obtain ⟨q, hq, e, he, hname⟩ := hnamed
  obtain ⟨e', he', haligned⟩ := h.entity he
  exact ⟨q, h.keeps_property hq, e', he', haligned.sameOrigin.name.trans hname⟩

/-- What is settled stays so. -/
theorem settled (h : d.Aligns added d') (hsettled : d.graph.Settled c name s) :
    d'.graph.Settled c name s :=
  fun hbare => h.listsNamed (hsettled (h.listsBare hbare))

/-- A property that was there before has the accessors that it had. -/
theorem hasAccessor (h : d.Aligns added d') {e : Entity} (he : d.graph.entity? p = some e)
    (hp : d'.graph.HasAccessor p s) : d.graph.HasAccessor p s := by
  obtain ⟨e', getter, setter, he', hdetail', i, hi, method', hmethod', hkind, hname⟩ := hp
  obtain ⟨e₁, he₁, haligned⟩ := h.entity he
  obtain rfl : e₁ = e' := Option.some.inj (he₁.symm.trans he')
  obtain ⟨method, hmethod, hmethods⟩ := h.exists_entity hmethod' (hkind ▸ by decide)
  refine ⟨e, getter, setter, he, ?_, i, hi, method, hmethod,
    hmethods.sameOrigin.kind.symm.trans hkind, hmethods.sameOrigin.name.symm.trans hname⟩
  exact haligned.sameOrigin.symm.property hdetail'

end Aligns

/-! ### Steps and loops -/

/-- Where a property has been looked for, it has been added if it is needed. -/
theorem settled_addProperty (d : Draft) (template : Entity) {selectors : String × String}
    (hs : s = selectors.1 ∨ s = selectors.2) (c : EntityId) :
    (d.addProperty template selectors c).graph.Settled c template.name s := by
  obtain ⟨h, hcase⟩ | ⟨e, m, getter, setter, hwraps, h⟩ :=
    d.addProperty_cases template selectors c <;> rw [h]
  · rintro ⟨i, ⟨m, hm, hi⟩, hbare⟩
    rcases hcase m hm with hproperty | ⟨hgetter, hsetter⟩
    · exact Graph.listsNamed_of_hasProperty hm hproperty
    · have hnone : d.graph.bareMethod? m.instanceMethods s = none := by
        rcases hs with rfl | rfl
        · exact hgetter
        · exact hsetter
      exact absurd ⟨i, ⟨m, hm, hi⟩, hbare⟩ (Graph.not_listsBare hm hnone)
  · intro _
    have hlists := hwraps.aligns.lists_property (List.mem_singleton_self _)
    obtain ⟨property, hproperty, -, hname, -⟩ := hwraps.holds.made
    exact ⟨_, hlists, property, hproperty, hname⟩

/-- What is settled by one step of a loop is so in the end. -/
theorem settled_foldl {α : Type} {step : Draft → α → Draft}
    (hstep : ∀ (d : Draft) a, ∃ added, d.Aligns added (step d a)) (d : Draft) {as : List α} {a : α}
    (ha : a ∈ as)
    (hsettled : ∀ d' added, d.Aligns added d' → (step d' a).graph.Settled c name s) :
    (as.foldl step d).graph.Settled c name s := by
  obtain ⟨before, after, rfl⟩ := List.append_of_mem ha
  rw [List.foldl_append, List.foldl_cons]
  obtain ⟨added, hbefore⟩ := aligns_foldl hstep d before
  obtain ⟨_, hafter⟩ := aligns_foldl hstep (step (before.foldl step d) a) after
  exact hafter.settled (hsettled _ added hbefore)

/-- For each ancestor the selector is settled by the property that offers it. -/
theorem settled_alignAncestors {e : Entity} (hp : d.graph.Lists x .instanceProperties p)
    (he : d.graph.entity? p = some e) (hs : d.graph.Offers p s) (hc : c ∈ d.graph.ancestors x) :
    (d.alignAncestors x).graph.Settled c e.name s := by
  obtain ⟨m, hm, hp⟩ := hp
  unfold alignAncestors
  rw [hm]
  refine settled_foldl (aligns_alignProperty _) d hp fun d' added h => ?_
  obtain ⟨selectors, hselectors, hs⟩ := (hs.retained h.retains).selectors
  obtain ⟨e', he', haligned⟩ := h.entity he
  unfold alignProperty
  rw [hselectors, he', ← haligned.sameOrigin.name]
  refine settled_foldl (fun d' c => ?_) d' hc fun d'' _ _ => settled_addProperty d'' e' hs c
  obtain ⟨others, h', -⟩ := aligns_addProperty d' e' selectors c
  exact ⟨others, h'⟩

/-- Neither the loss of shadowed methods nor the report changes what has been settled. -/
theorem settled_alignInterface {e : Entity} (hkind : d.graph.kind? x = some .interface)
    (hp : d.graph.Lists x .instanceProperties p) (he : d.graph.entity? p = some e)
    (hs : d.graph.Offers p s) (hc : c ∈ d.graph.ancestors x) :
    (d.alignInterface x).graph.Settled c e.name s := by
  unfold alignInterface
  rw [if_pos hkind]
  have hsettled := settled_alignAncestors hp he hs hc
  exact (aligns_reportOverloads _ x).settled ((aligns_dropShadowed _ x).settled hsettled)

/-! ### The whole pass -/

/-- The property at `p` is one that has been added to the interface at `x`, for an interface among
`ids`. -/
def AddedFor (d : Draft) (ids : List EntityId) (x p : EntityId) : Prop :=
  ∃ a : Addition, a.container = x ∧ a.property = p ∧ a.Holds d.graph d.alignAccessors.graph ∧
    ∃ y ∈ ids, ∃ q, a.Answers d.graph d.alignAccessors.graph y q

/-- **Aligned accessors.** What an interface lists as a property in the end is settled in all its
immediate ancestors, unless the property was added to it for an interface that comes later. (The
interface may also have listed a vacant slot, where a property has been put later.) -/
theorem accessors_settled {d : Draft} {before after : List EntityId} {x p : EntityId} {e : Entity}
    (hlisted : d.listed = before ++ x :: after) (hkind : d.graph.kind? x = some .interface)
    (hp : d.alignAccessors.graph.Lists x .instanceProperties p)
    (he : d.alignAccessors.graph.entity? p = some e) :
    (∀ c ∈ d.alignAccessors.graph.ancestors x, ∀ s, d.alignAccessors.graph.HasAccessor p s →
      d.alignAccessors.graph.Settled c e.name s) ∨
    d.AddedFor after x p ∨
    (d.graph.Lists x .instanceProperties p ∧ d.graph.entity? p = none) := by
  let turn := before.foldl alignInterface d
  have halign : d.alignAccessors = after.foldl alignInterface (turn.alignInterface x) :=
    forListed_split hlisted alignInterface
  obtain ⟨_, hbefore⟩ := alignsFor_foldl d before
  obtain ⟨_, hturn⟩ := alignsFor_alignInterface turn x
  obtain ⟨_, hafter⟩ := alignsFor_foldl (turn.alignInterface x) after
  rw [← halign] at hafter
  rcases hafter.aligns.lists_or_added hp with hp | ⟨a, ha, hcontainer, hproperty⟩
  · have hp : turn.graph.Lists x .instanceProperties p := by
      refine (hturn.aligns.lists_or_added hp).resolve_right ?_
      -- its own turn does not give the interface properties
      rintro ⟨a, ha, hcontainer, -⟩
      obtain ⟨y, hy, q, hanswers⟩ := hturn.answers a ha
      exact hanswers.other (hcontainer.trans (List.mem_singleton.mp hy).symm)
    have hrest := hturn.aligns.trans hafter.aligns
    cases he₀ : turn.graph.entity? p with
    | none =>
      refine .inr (.inr ⟨?_, hbefore.aligns.retains.vacant he₀⟩)
      refine (hbefore.aligns.lists_or_added hp).resolve_right ?_
      rintro ⟨a, ha, -, rfl⟩
      obtain ⟨e, he, -⟩ := (hbefore.aligns.holds a ha).made
      cases he₀.symm.trans he
    | some e₀ =>
      refine .inl fun c hc s hs => ?_
      have hkind := hbefore.aligns.kind hkind
      rw [hrest.ancestors hkind] at hc
      obtain ⟨e', he', haligned⟩ := hrest.entity he₀
      obtain rfl : e' = e := Option.some.inj (he'.symm.trans he)
      rw [haligned.sameOrigin.name]
      exact hafter.aligns.settled
        (settled_alignInterface hkind hp he₀ (hrest.hasAccessor he₀ hs).offers hc)
  · obtain ⟨y, hy, q, hanswers⟩ := hafter.answers a ha
    have hold := hbefore.aligns.trans hturn.aligns
    exact .inr (.inl ⟨a, hcontainer, hproperty, hold.holds_right hafter.aligns ha, y, hy, q,
      hanswers.earlier hold.retains⟩)

/-! ### A property that is added too late -/

/-- Three classes, one below the other, with a method `title` each. The lowest has a property for
it. -/
def layeredTitles : Draft where
  graph := {
    slots := #[some (.plain "title" "M" (.method [⟨0⟩] [])),
      some (.plain "Top" "M" (.interface { Members.empty with instanceMethods := [⟨0⟩] } none [])),
      some (.plain "title" "M" (.method [⟨0⟩] [])),
      some (.plain "Middle" "M"
        (.interface { Members.empty with instanceMethods := [⟨2⟩] } (some ⟨1⟩) [])),
      some (Entity.plain "title" "M" (.method [⟨0⟩] [])).asAccessor,
      some (.plain "title" "M" (.property (some ⟨4⟩) none)),
      some (.plain "Low" "M" (.interface
        { Members.empty with instanceMethods := [⟨4⟩], instanceProperties := [⟨5⟩] }
        (some ⟨3⟩) []))]
    types := #[.scalar .void] }
  listed := [⟨1⟩, ⟨3⟩, ⟨6⟩]
  report := {}

/-- What becomes of the graph: only the class in the middle gets a property. -/
theorem graph_layeredTitles : layeredTitles.alignAccessors.graph = {
    slots := #[some (.plain "title" "M" (.method [⟨0⟩] [])),
      some (.plain "Top" "M" (.interface { Members.empty with instanceMethods := [⟨0⟩] } none [])),
      some (Entity.plain "title" "M" (.method [⟨0⟩] [])).asAccessor,
      some (.plain "Middle" "M"
        (.interface { Members.empty with instanceProperties := [⟨7⟩] } (some ⟨1⟩) [])),
      some (Entity.plain "title" "M" (.method [⟨0⟩] [])).asAccessor,
      some (.plain "title" "M" (.property (some ⟨4⟩) none)),
      some (.plain "Low" "M" (.interface
        { Members.empty with instanceMethods := [⟨4⟩], instanceProperties := [⟨5⟩] }
        (some ⟨3⟩) [])),
      some (.plain "title" "M" (.property (some ⟨2⟩) none))]
    types := #[.scalar .void] } := by
  cbv

/-- The lowest class comes last, and what it has a property for is settled above it. -/
theorem settled_layeredTitles : layeredTitles.listed = [⟨1⟩, ⟨3⟩] ++ ⟨6⟩ :: [] ∧
    layeredTitles.graph.kind? ⟨6⟩ = some .interface ∧
      layeredTitles.alignAccessors.graph.Lists ⟨6⟩ .instanceProperties ⟨5⟩ ∧
        ∃ e, layeredTitles.alignAccessors.graph.entity? ⟨5⟩ = some e ∧
          layeredTitles.alignAccessors.graph.ancestors ⟨6⟩ = [⟨3⟩] ∧
            layeredTitles.alignAccessors.graph.HasAccessor ⟨5⟩ "title" ∧
              layeredTitles.alignAccessors.graph.Settled ⟨3⟩ e.name "title" := by
  have hlisted : layeredTitles.listed = [⟨1⟩, ⟨3⟩] ++ ⟨6⟩ :: [] := rfl
  have hkind : layeredTitles.graph.kind? ⟨6⟩ = some .interface := by decide
  have hp : layeredTitles.alignAccessors.graph.Lists ⟨6⟩ .instanceProperties ⟨5⟩ := by
    rw [graph_layeredTitles]
    exact ⟨_, rfl, List.mem_singleton.mpr rfl⟩
  have he : layeredTitles.alignAccessors.graph.entity? ⟨5⟩ =
      some (.plain "title" "M" (.property (some ⟨4⟩) none)) := by
    rw [graph_layeredTitles]
    rfl
  have hancestors : layeredTitles.alignAccessors.graph.ancestors ⟨6⟩ = [⟨3⟩] := by
    rw [graph_layeredTitles]
    rfl
  have haccessor : layeredTitles.alignAccessors.graph.HasAccessor ⟨5⟩ "title" := by
    rw [graph_layeredTitles]
    exact ⟨_, _, _, rfl, rfl, ⟨4⟩, List.mem_singleton.mpr rfl, _, rfl, rfl, rfl⟩
  refine ⟨hlisted, hkind, hp, _, he, hancestors, haccessor, ?_⟩
  rcases accessors_settled hlisted hkind hp he with h | ⟨a, -, -, -, y, hy, -⟩ | ⟨-, hnone⟩
  · exact h ⟨3⟩ (hancestors ▸ List.mem_singleton.mpr rfl) "title" haccessor
  · cases hy
  · cases hnone

/-- **A property that is added too late.** The class in the middle is given a property for the
lowest one after its turn. The class on top keeps its bare method. -/
theorem title_bare_layeredTitles : layeredTitles.listed.Nodup ∧
    (∀ x ∈ layeredTitles.listed, layeredTitles.graph.kind? x = some .interface) ∧
      ⟨3⟩ ∈ layeredTitles.listed ∧
        layeredTitles.alignAccessors.graph.Lists ⟨3⟩ .instanceProperties ⟨7⟩ ∧
          ⟨1⟩ ∈ layeredTitles.alignAccessors.graph.ancestors ⟨3⟩ ∧
            ∃ e, layeredTitles.alignAccessors.graph.entity? ⟨7⟩ = some e ∧
              layeredTitles.alignAccessors.graph.HasAccessor ⟨7⟩ "title" ∧
                ¬layeredTitles.alignAccessors.graph.Settled ⟨1⟩ e.name "title" := by
  rw [graph_layeredTitles]
  refine ⟨by decide, by decide, by decide, ⟨_, rfl, List.mem_singleton.mpr rfl⟩,
    List.mem_singleton.mpr rfl, _, rfl, ?_, fun hsettled => ?_⟩
  · exact ⟨_, _, _, rfl, rfl, ⟨2⟩, List.mem_singleton.mpr rfl, _, rfl, rfl, rfl⟩
  · obtain ⟨q, ⟨m, hm, hq⟩, -⟩ :=
      hsettled ⟨⟨0⟩, ⟨_, rfl, List.mem_singleton.mpr rfl⟩, _, rfl, rfl, rfl, rfl⟩
    -- the class on top lists no property
    obtain rfl : { Members.empty with instanceMethods := [⟨0⟩] } = m := Option.some.inj hm
    cases hq

end Draft

end InteropGraph
