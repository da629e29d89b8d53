import InteropGraph.Proofs.RedundantMembers

/-!
# Inherited properties

The key of a property has the types of its getter, and nothing of its setter
(`Graph.memberKey?_eq_property_iff`). So a property is dropped as inherited if something in the
chain of bases lists one that reads like it (`Graph.ReadsLike`), also where the one that is
inherited cannot be set.
-/

namespace InteropGraph

/-- The getter and the setter of a property. -/
def Entity.accessors? (e : Entity) : Option (Option EntityId × Option EntityId) :=
  match e.detail with
  | .property getter setter => some (getter, setter)
  | _ => none

namespace Graph

variable {g : Graph} {p q i : EntityId} {key : MemberKey}

/-- The getter of the property at a place. -/
def getter? (g : Graph) (p : EntityId) : Option EntityId :=
  ((g.entity? p).bind Entity.accessors?).bind Prod.fst

/-- The setter of the property at a place. -/
def setter? (g : Graph) (p : EntityId) : Option EntityId :=
  ((g.entity? p).bind Entity.accessors?).bind Prod.snd

/-- The types of the getter of a property; there are none if it has no getter. -/
def getterTypes? (g : Graph) (p : EntityId) : Option (List BridgeType) :=
  ((g.entity? p).bind Entity.accessors?).map fun a => (a.1.map g.signatureTypes).getD []

/-- Both are properties, with one name, static or not, and with getters of the same types. -/
structure ReadsLike (g : Graph) (p q : EntityId) : Prop where
  name : g.nameAndStatic? q = g.nameAndStatic? p
  types : g.getterTypes? q = g.getterTypes? p
  property : (g.getterTypes? p).isSome = true

/-- The first member of a name has that name. -/
theorem name_of_first? {name : String × Bool} {ids : List EntityId}
    (h : g.first? name ids = some p) : g.nameAndStatic? p = some name := by
  have hfound := List.find?_some h
  exact of_decide_eq_true hfound

/-- All that the key of a property tells is its name, and of what types its getter is. -/
theorem memberKey?_eq_property_iff {name : String} {static : Bool} {types : List BridgeType} :
    g.memberKey? p = some ⟨.property, name, static, types⟩ ↔
      g.nameAndStatic? p = some (name, static) ∧ g.getterTypes? p = some types := by
  unfold memberKey? nameAndStatic? getterTypes?
  cases g.entity? p with
  | none => simp
  | some e =>
    rw [Option.map_some, Option.map_some, Option.bind_some, Option.some.injEq, Option.some.injEq,
      MemberKey.mk.injEq, Prod.mk.injEq]
    unfold Entity.kind Entity.accessors?
    cases e.detail with
    | property getter setter => cases getter <;> simp [Detail.kind, and_assoc]
    | _ => simp [Detail.kind]

/-- What has the key of a property is what reads like it. -/
theorem readsLike_iff (hp : g.kind? p = some .property) (hkey : g.memberKey? p = some key) :
    g.ReadsLike p q ↔ g.memberKey? q = some key := by
  obtain ⟨e, he, hkind⟩ := Option.map_eq_some_iff.mp hp
  obtain ⟨kind, name, static, types⟩ := key
  obtain rfl : kind = .property := by
    rw [memberKey?, he] at hkey
    exact (congrArg MemberKey.kind (Option.some.inj hkey)).symm.trans hkind
  obtain ⟨hname, htypes⟩ := memberKey?_eq_property_iff.mp hkey
  rw [memberKey?_eq_property_iff, ← hname, ← htypes]
  exact ⟨fun h => ⟨h.name, h.types⟩, fun h => ⟨h.1, h.2, htypes ▸ rfl⟩⟩

/-- What reads like a property with a getter has one of the same types. -/
theorem ReadsLike.exists_getter (h : g.ReadsLike p q) (hi : g.getter? p = some i)
    (htypes : g.signatureTypes i ≠ []) :
    ∃ j, g.getter? q = some j ∧ g.signatureTypes j = g.signatureTypes i := by
  have hsame := h.types
  obtain ⟨a, ha, hgetter⟩ := Option.bind_eq_some_iff.mp hi
  rw [getterTypes?, getterTypes?, ha, Option.map_some, hgetter, Option.map_some,
    Option.getD_some] at hsame
  obtain ⟨a', ha', hsame⟩ := Option.map_eq_some_iff.mp hsame
  cases hgetter' : a'.1 with
  | none =>
    rw [hgetter'] at hsame
    exact absurd hsame.symm htypes
  | some j =>
    rw [hgetter'] at hsame
    exact ⟨j, by rw [getter?, ha', Option.bind_some, hgetter'], hsame⟩

end Graph

namespace Draft

variable {d : Draft} {before after : List EntityId} {x p : EntityId} {m m' : Members}
  {k : MemberList} {name : String × Bool} {key : MemberKey}

/-- The first member of a name is dropped if its key is inherited when it is the turn of the
container. -/
theorem first_dropped_iff (hnodup : d.listed.Nodup) (hlisted : d.listed = before ++ x :: after)
    (hm : d.graph.members? x = some m) (hm' : d.dropRedundant.graph.members? x = some m')
    (hfirst : d.graph.first? name (m.list k) = some p) (hkey : d.graph.memberKey? p = some key) :
    p ∉ m'.list k ↔ (before.foldl dropRedundantFrom d).graph.Inherits x key := by
  let turn := before.foldl dropRedundantFrom d
  have honce : x ∉ before ++ after :=
    (List.nodup_cons.mp (List.nodup_middle.mp (hlisted ▸ hnodup))).1
  have hturn : d.graph.Loses turn.graph := loses_foldl d before
  -- the container is as it was when its turn comes, and stays as it is afterwards
  have hm₁ : turn.graph.members? x = some m :=
    (members?_foldl_of_not_mem fun h => honce (List.mem_append_left _ h)).trans hm
  have hm₂ : (turn.dropRedundantFrom x).graph.members? x = some m' := by
    have hafter : x ∉ after := fun h => honce (List.mem_append_right _ h)
    rw [← hm', dropRedundant, forListed_split hlisted, members?_foldl_of_not_mem hafter]
  have hname : turn.graph.nameAndStatic? p = some name :=
    (hturn.name p).trans (Graph.name_of_first? hfirst)
  rw [mem_dropRedundantFrom_iff hm₁ hm₂ hname, hturn.first?, and_iff_right hfirst, not_not,
    hturn.key, hkey]
  exact ⟨fun ⟨_, h, hinherits⟩ => Option.some.inj h ▸ hinherits, fun h => ⟨key, rfl, h⟩⟩

/-- **Inherited properties.** The first property of its name in a list is dropped exactly if
something in the chain of bases still lists a property that reads like it when it is the turn of the
interface. So what is dropped can be read in the same way from a property that has been inherited
before. -/
theorem first_property_dropped_iff (hnodup : d.listed.Nodup)
    (hlisted : d.listed = before ++ x :: after) (hm : d.graph.members? x = some m)
    (hm' : d.dropRedundant.graph.members? x = some m')
    (hfirst : d.graph.first? name (m.list k) = some p) (hp : d.graph.kind? p = some .property) :
    (p ∉ m'.list k ↔ ∃ c, d.graph.Above x c ∧ ∃ k' q, d.graph.ReadsLike p q ∧
      (before.foldl dropRedundantFrom d).graph.Lists c k' q) ∧
    (p ∉ m'.list k → ∃ c, d.graph.Above x c ∧ ∃ k' q, d.graph.ReadsLike p q ∧
      d.graph.Lists c k' q ∧ ∀ i, d.graph.getter? p = some i → d.graph.signatureTypes i ≠ [] →
        ∃ j, d.graph.getter? q = some j ∧ d.graph.signatureTypes j = d.graph.signatureTypes i) := by
  obtain ⟨key, hkey, -⟩ := Graph.exists_memberKey? (Graph.name_of_first? hfirst)
  have hloses : d.graph.Loses (before.foldl dropRedundantFrom d).graph := loses_foldl d before
  have hdropped : p ∉ m'.list k ↔ ∃ c, d.graph.Above x c ∧ ∃ k' q, d.graph.ReadsLike p q ∧
      (before.foldl dropRedundantFrom d).graph.Lists c k' q := by
    rw [first_dropped_iff hnodup hlisted hm hm' hfirst hkey]
    refine exists_congr fun c => and_congr hloses.above ?_
    simp only [Graph.readsLike_iff hp hkey]
    constructor
    · rintro ⟨m₀, hm₀, k', q, hq, hkey'⟩
      exact ⟨k', q, (hloses.key q).symm.trans hkey', m₀, hm₀, hq⟩
    · rintro ⟨k', q, hkey', m₀, hm₀, hq⟩
      exact ⟨m₀, hm₀, k', q, hq, (hloses.key q).trans hkey'⟩
  refine ⟨hdropped, fun hlost => ?_⟩
  obtain ⟨c, hc, k', q, hreads, m₁, hm₁, hq⟩ := hdropped.mp hlost
  obtain ⟨m₀, hm₀, hsublist⟩ := hloses.members hm₁
  exact ⟨c, hc, k', q, hreads, ⟨m₀, hm₀, (hsublist k').subset hq⟩, fun i => hreads.exists_getter⟩

/-! ### A property that can be set -/

/-- A class with a property `title` that cannot be set, and a class below where it can. -/
def titledField : Draft where
  graph := {
    slots := #[some (Entity.plain "title" "M" (.method [⟨0⟩] [])).asAccessor,
      some (.plain "title" "M" (.property (some ⟨0⟩) none)),
      some (.plain "Label" "M"
        (.interface { Members.empty with instanceProperties := [⟨1⟩] } none [])),
      some (Entity.plain "setTitle:" "M" (.method [⟨0⟩, ⟨0⟩] [])).asAccessor,
      some (.plain "title" "M" (.property (some ⟨0⟩) (some ⟨3⟩))),
      some (.plain "Field" "M"
        (.interface { Members.empty with instanceProperties := [⟨4⟩] } (some ⟨2⟩) []))]
    types := #[.scalar .void] }
  listed := [⟨2⟩, ⟨5⟩]
  report := {}

/-- The field loses its property. -/
theorem members_titledField :
    titledField.dropRedundant.graph.members? ⟨5⟩ = some Members.empty := by
  decide

/-- The title of the field can be set and the inherited one cannot, but both read alike. -/
theorem first_property_dropped_titledField : titledField.listed.Nodup ∧
    titledField.listed = [⟨2⟩] ++ ⟨5⟩ :: [] ∧ titledField.graph.kind? ⟨4⟩ = some .property ∧
    ∃ m m', titledField.graph.members? ⟨5⟩ = some m ∧
      titledField.dropRedundant.graph.members? ⟨5⟩ = some m' ∧
        titledField.graph.first? ("title", false) (m.list .instanceProperties) = some ⟨4⟩ ∧
          ∃ c, titledField.graph.Above ⟨5⟩ c ∧ ∃ k q, titledField.graph.ReadsLike ⟨4⟩ q ∧
            titledField.graph.Lists c k q := by
  have hnodup : titledField.listed.Nodup := by decide
  have hlisted : titledField.listed = [⟨2⟩] ++ ⟨5⟩ :: [] := rfl
  have hfirst : titledField.graph.first? ("title", false) [⟨4⟩] = some ⟨4⟩ := by decide
  obtain ⟨-, h⟩ := first_property_dropped_iff (k := .instanceProperties) hnodup hlisted rfl
    members_titledField hfirst rfl
  obtain ⟨c, hc, k, q, hreads, hlists, -⟩ := h List.not_mem_nil
  exact ⟨hnodup, hlisted, rfl, _, _, rfl, members_titledField, hfirst, c, hc, k, q, hreads, hlists⟩

/-- **A setter that is lost.** The class below loses its property, though no property that it
inherits has a setter. -/
theorem setter_lost_titledField : titledField.listed.Nodup ∧ ∃ m,
    titledField.graph.members? ⟨5⟩ = some m ∧
      titledField.graph.first? ("title", false) m.instanceProperties = some ⟨4⟩ ∧
        titledField.graph.setter? ⟨4⟩ = some ⟨3⟩ ∧
          titledField.dropRedundant.graph.members? ⟨5⟩ = some Members.empty ∧
            ∀ c, titledField.graph.Above ⟨5⟩ c → ∀ k q, titledField.graph.Lists c k q →
              titledField.graph.setter? q = none := by
  refine ⟨by decide, _, rfl, by decide, rfl, members_titledField, ?_⟩
  rintro c hc k q ⟨m, hm, hq⟩
  have hbases : titledField.graph.bases ⟨5⟩ = [⟨2⟩] := by decide
  obtain rfl : c = ⟨2⟩ := List.mem_singleton.mp (hbases ▸ Graph.mem_bases_iff.mpr hc)
  obtain rfl := Option.some.inj hm
  cases k with
  | instanceProperties =>
    obtain rfl := List.mem_singleton.mp hq
    rfl
  | _ => cases hq

end Draft

end InteropGraph
