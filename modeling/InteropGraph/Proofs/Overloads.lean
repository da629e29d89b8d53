import InteropGraph.Proofs.Dump
import InteropGraph.Proofs.Pass.Overloads
import Mathlib

/-!
# Reported overloads

Overloads are recorded for one interface after the other, in the order of entities
(`Draft.records`). What is recorded describes the finished graph, as long as no interface that comes
later takes accessors away from the one that it is recorded for, and no method is renamed as a
listed entity. Methods that are taken away make groups smaller, so nothing is ever missing from the
report; but it may hold groups that the finished graph does not have any more.

Mathlib is imported whole for `cbv`, which evaluates the examples, and which would otherwise state
equations of its own for functions of the library.
-/

namespace InteropGraph

namespace Graph

variable {g g' : Graph} {L : List EntityId} {container : String} {methods : List EntityId}
  {o : Overload}

/-- There is an interface at `x` with the given name and instance methods. -/
def InterfaceAt (g : Graph) (x : EntityId) (name : String) (methods : List EntityId) : Prop :=
  ∃ e m, g.entity? x = some e ∧ e.kind = .interface ∧ e.name = name ∧ e.members? = some m ∧
    m.instanceMethods = methods

/-- The immediate ancestors of the interfaces in a list. -/
def above (g : Graph) (ids : List EntityId) : Set EntityId :=
  {a | ∃ y ∈ ids, g.kind? y = some .interface ∧ a ∈ g.ancestors y}

/-- `found` has been recorded for the entity at `x`, before the entities in `later` were aligned,
and describes what is there now. -/
structure Recorded (g : Graph) (listed later : List EntityId) (x : EntityId)
    (found : List Overload) : Prop where
  /-- Nothing is recorded for what is no interface. -/
  other : g.kind? x ≠ some .interface → found = []
  /-- No group is missing, and none lacks a selector. -/
  covers : ∀ {name methods}, g.InterfaceAt x name methods → (∀ i ∈ methods, i ∉ listed) →
    ∀ o, g.IsOverload name methods o → ∃ o' ∈ found, o'.container = o.container ∧
      o'.bridgeName = o.bridgeName ∧ o'.arity = o.arity ∧ o.selectors.Sublist o'.selectors
  /-- Each group is recorded once and as it is, if no later interface has `x` for an immediate
  ancestor. -/
  exact : ∀ {name methods}, g.InterfaceAt x name methods → (∀ i ∈ methods, i ∉ listed) →
    x ∉ g.above later → found.Nodup ∧ ∀ o, o ∈ found ↔ g.IsOverload name methods o

/-! ### Groups in a row of steps -/

/-- Entities keep their origin in a row of steps, and their names if they are not listed. -/
theorem Rearranged.entity (h : g.Rearranged L g') {i : EntityId} {e : Entity}
    (he : g.entity? i = some e) : ∃ e', g'.entity? i = some e' ∧ e.SameOrigin e' ∧
      (i ∉ L → e'.bridgeName = e.bridgeName) := by
  induction h with
  | refl => exact ⟨e, he, .refl e, fun _ => rfl⟩
  | tail _ hstep ih =>
    obtain ⟨e₁, he₁, hsame, hname⟩ := ih
    obtain ⟨e₂, he₂, hsame'⟩ := hstep.retains.kept he₁
    exact ⟨e₂, he₂, hsame.trans hsame', fun hi => (hstep.name hi he₁ he₂).trans (hname hi)⟩

/-- Methods that are not listed stay in their groups. -/
theorem Rearranged.isOverload_iff (h : g.Rearranged L g')
    (hmethods : ∀ i ∈ methods, i ∉ L ∧ ∃ e, g.entity? i = some e) :
    g'.IsOverload container methods o ↔ g.IsOverload container methods o := by
  have hselectors : methods.filterMap (g'.selectorOf? o.bridgeName o.arity) =
      methods.filterMap (g.selectorOf? o.bridgeName o.arity) := by
    refine List.filterMap_congr fun i hi => ?_
    obtain ⟨hL, e, he⟩ := hmethods i hi
    obtain ⟨e', he', hsame, hname⟩ := h.entity he
    unfold selectorOf?
    rw [he, he']
    dsimp only
    rw [hname hL, hsame.arity, hsame.name]
  constructor
  · rintro ⟨hcontainer, hall, hseveral⟩
    exact ⟨hcontainer, hall.trans hselectors, hseveral⟩
  · rintro ⟨hcontainer, hall, hseveral⟩
    exact ⟨hcontainer, hall.trans hselectors.symm, hseveral⟩

/-- A group of some of the methods is part of a group of all of them. -/
theorem IsOverload.of_sublist {some all : List EntityId} (h : g.IsOverload container some o)
    (hsublist : some.Sublist all) : ∃ o', g.IsOverload container all o' ∧
      o'.container = o.container ∧ o'.bridgeName = o.bridgeName ∧ o'.arity = o.arity ∧
        o.selectors.Sublist o'.selectors := by
  have hselectors : o.selectors.Sublist (all.filterMap (g.selectorOf? o.bridgeName o.arity)) := by
    rw [h.selectors]
    exact hsublist.filterMap _
  exact ⟨⟨o.container, o.bridgeName, o.arity, all.filterMap (g.selectorOf? o.bridgeName o.arity)⟩,
    ⟨h.container, rfl, h.several.trans hselectors.length_le⟩, rfl, rfl, rfl, hselectors⟩

/-- For what is no interface nothing is recorded. -/
theorem recorded_nil {later : List EntityId} {x : EntityId} (h : g.kind? x ≠ some .interface) :
    g.Recorded L later x [] := by
  have hnone {name methods} (hx : g.InterfaceAt x name methods) : False := by
    obtain ⟨e, -, he, hkind, -⟩ := hx
    rw [kind?, he, Option.map_some, hkind] at h
    exact h rfl
  exact ⟨fun _ => rfl, fun hx => (hnone hx).elim, fun hx => (hnone hx).elim⟩

/-- What has been recorded for an interface once it was aligned, in a graph where its methods
exist. -/
theorem recorded_overloads (hrun : g.Rearranged L g') {later : List EntityId}
    (hthins : g.Thins (g'.above later) g') {x : EntityId} {e : Entity} {m : Members}
    (he : g.entity? x = some e) (hkind : e.kind = .interface) (hm : e.members? = some m)
    (hmethods : ∀ i ∈ m.instanceMethods, ∃ e, g.entity? i = some e) :
    g'.Recorded L later x (Draft.overloads g e.name m.instanceMethods) := by
  -- the interface has lost some methods at most, and none that are left have other names
  have hnow {name methods} (hx : g'.InterfaceAt x name methods) :
      name = e.name ∧ methods.Sublist m.instanceMethods ∧
        (x ∉ g'.above later → methods = m.instanceMethods) := by
    obtain ⟨e₁, m₁, he₁, -, rfl, hm₁, rfl⟩ := hx
    obtain ⟨e₂, he₂, hsame, -⟩ := hrun.entity he
    obtain rfl : e₁ = e₂ := Option.some.inj (he₁.symm.trans he₂)
    obtain ⟨m₂, hm₂, hsublist, hall⟩ :=
      hthins.methods (members?_eq_some_iff.mpr ⟨e, he, hm⟩)
    obtain rfl : m₁ = m₂ :=
      Option.some.inj ((members?_eq_some_iff.mpr ⟨e₁, he₁, hm₁⟩).symm.trans hm₂)
    exact ⟨hsame.name, hsublist, hall⟩
  refine ⟨fun hother => ?_, fun hx hlisted o ho => ?_, fun hx hlisted hlater => ?_⟩
  · have hinterface : g.kind? x = some .interface := by
      rw [kind?, he, Option.map_some, hkind]
    exact absurd ((hthins.interface x).mpr hinterface) hother
  · obtain ⟨rfl, hsublist, -⟩ := hnow hx
    have hbefore := (hrun.isOverload_iff fun i hi =>
      ⟨hlisted i hi, hmethods i (hsublist.subset hi)⟩).mp ho
    obtain ⟨o', ho', hrest⟩ := hbefore.of_sublist hsublist
    exact ⟨o', Draft.mem_overloads_iff.mpr ho', hrest⟩
  · obtain ⟨rfl, -, hall⟩ := hnow hx
    obtain rfl := hall hlater
    refine ⟨Draft.nodup_overloads g e.name m.instanceMethods, fun o => ?_⟩
    rw [Draft.mem_overloads_iff]
    exact (hrun.isOverload_iff fun i hi => ⟨hlisted i hi, hmethods i hi⟩).symm

end Graph

namespace Draft

/-! ### What is recorded -/

/-- What is recorded for the entity at `id` when its turn has come. -/
def found (d : Draft) (id : EntityId) : List Overload :=
  if d.graph.kind? id = some .interface then
    let aligned := ((d.alignAncestors id).dropShadowed id).graph
    match aligned.entity? id with
    | some e => overloads aligned e.name ((e.members?.map Members.instanceMethods).getD [])
    | none => []
  else []

/-- What is recorded for each of the entities, when they are aligned one after the other. -/
def records (d : Draft) : List EntityId → List (EntityId × List Overload)
  | [] => []
  | id :: ids => (id, d.found id) :: (d.alignInterface id).records ids

/-- An interface reports its overloads in its turn, behind those that have been reported. -/
theorem overloads_alignInterface (d : Draft) (id : EntityId) :
    (d.alignInterface id).report.overloads = d.report.overloads ++ d.found id := by
  have hsame := (same_alignAncestors d id).trans (drops_dropShadowed (d.alignAncestors id) id).same
  unfold alignInterface found
  by_cases hkind : d.graph.kind? id = some .interface
  · rw [if_pos hkind, if_pos hkind, ← hsame.overloads]
    unfold reportOverloads
    dsimp only
    cases ((d.alignAncestors id).dropShadowed id).graph.entity? id with
    | none => exact (List.append_nil _).symm
    | some e => rfl
  · rw [if_neg hkind, if_neg hkind, List.append_nil]

/-- The overloads of a row of interfaces stand in the order of their turns. -/
theorem overloads_foldl (d : Draft) (ids : List EntityId) :
    (ids.foldl alignInterface d).report.overloads =
      d.report.overloads ++ (d.records ids).flatMap Prod.snd := by
  induction ids generalizing d with
  | nil => exact (List.append_nil _).symm
  | cons id ids ih =>
    rw [List.foldl_cons, ih, overloads_alignInterface, List.append_assoc]
    rfl

/-- There is one record for each turn. -/
theorem map_fst_records (d : Draft) (ids : List EntityId) :
    (d.records ids).map Prod.fst = ids := by
  induction ids generalizing d with
  | nil => rfl
  | cons id ids ih => exact congrArg _ (ih (d.alignInterface id))

/-- A record is what has been found after the entities before it were aligned. -/
theorem records_split {d : Draft} {ids : List EntityId} {x : EntityId} {found : List Overload}
    {before after : List (EntityId × List Overload)}
    (h : d.records ids = before ++ (x, found) :: after) :
    ids = before.map Prod.fst ++ x :: after.map Prod.fst ∧
      found = ((before.map Prod.fst).foldl alignInterface d).found x := by
  have hids := congrArg (List.map Prod.fst) h
  rw [map_fst_records, List.map_append, List.map_cons] at hids
  refine ⟨hids, ?_⟩
  clear hids
  induction before generalizing d ids with
  | nil =>
    cases ids with
    | nil => cases h
    | cons id ids =>
      obtain ⟨hhead, -⟩ := List.cons.inj h
      obtain ⟨rfl, rfl⟩ := Prod.mk.inj hhead
      rfl
  | cons p before ih =>
    cases ids with
    | nil => cases h
    | cons id ids =>
      obtain ⟨rfl, htail⟩ := List.cons.inj h
      exact ih htail

/-- What is found for an interface in a closed set are the groups of its methods. -/
theorem found_of_interface {d : Draft} {L : Set Node} {x : EntityId} (hclosed : d.graph.Closed L)
    (hx : .entity x ∈ L) (hkind : d.graph.kind? x = some .interface) :
    ∃ e m, (d.alignInterface x).graph.entity? x = some e ∧ e.kind = .interface ∧
      e.members? = some m ∧
      d.found x = overloads (d.alignInterface x).graph e.name m.instanceMethods ∧
      ∀ i ∈ m.instanceMethods, ∃ e, (d.alignInterface x).graph.entity? i = some e := by
  obtain ⟨L', hwidens, haligned⟩ := closed_alignInterface hclosed hx
  obtain ⟨e₀, he₀, hkind₀⟩ := Option.map_eq_some_iff.mp hkind
  obtain ⟨e, he, hsame⟩ := (retains_alignInterface d x).graph.kept he₀
  have hinterface : e.kind = .interface := hsame.kind.trans hkind₀
  obtain ⟨m, hm⟩ := Entity.exists_members?_iff.mpr (.inl hinterface)
  refine ⟨e, m, he, hinterface, hm, ?_, fun i hi => ?_⟩
  · unfold found
    have hgraph : (d.alignInterface x).graph =
        ((d.alignAncestors x).dropShadowed x).graph := by
      unfold alignInterface
      rw [if_pos hkind, graph_reportOverloads]
    rw [if_pos hkind, ← hgraph]
    dsimp only
    rw [he]
    dsimp only
    rw [hm]
    rfl
  · have hmembers : (d.alignInterface x).graph.members? x = some m :=
      Graph.members?_eq_some_iff.mpr ⟨e, he, hm⟩
    exact haligned.exists_member (k := .instanceMethods) (hwidens.subset hx) hmembers hi

/-! ### What becomes of it -/

/-- What happens to the graph when the entities in `later` are still to be aligned. -/
theorem rearranged_later {d d' : Draft} {later : List EntityId}
    (h : d.alignAccessors = later.foldl alignInterface d') :
    d'.graph.Rearranged d.listed d.alignAccessors.resolveClashes.graph := by
  have hclashes : d.alignAccessors.graph.Rearranged d.listed
      d.alignAccessors.resolveClashes.graph :=
    rearranged_resolveClashes (listed_alignAccessors d ▸ List.Subset.refl _)
  refine Relation.ReflTransGen.trans ?_ hclashes
  rw [h]
  exact rearranged_foldl (fun d id _ => rearranged_alignInterface d id) d'

/-- Methods are taken away from no others than the immediate ancestors of interfaces in `later`. -/
theorem thins_later {d d' : Draft} {later : List EntityId}
    (h : d.alignAccessors = later.foldl alignInterface d') :
    d'.graph.Thins (d.alignAccessors.resolveClashes.graph.above later)
      d.alignAccessors.resolveClashes.graph := by
  have hthins {T : Set EntityId} (hT : ∀ y ∈ later, d'.graph.kind? y = some .interface →
      ∀ a ∈ d'.graph.ancestors y, a ∈ T) :
      d'.graph.Thins T d.alignAccessors.resolveClashes.graph := by
    refine Graph.Thins.trans ?_ (thins_resolveClashes d.alignAccessors)
    rw [h]
    exact thins_foldl_alignInterface d' hT
  -- ancestors are now what they are in the end
  have hall := hthins fun _ _ _ a _ => Set.mem_univ a
  exact hthins fun y hy hkind a ha =>
    ⟨y, hy, (hall.interface y).mpr hkind, (hall.ancestors y).symm ▸ ha⟩

/-- What has been recorded for an entity describes the finished graph. -/
theorem recorded_of_split {d : Draft} {L : Set Node} (hclosed : d.IsClosedOn L) {x : EntityId}
    {found : List Overload} {before after : List (EntityId × List Overload)}
    (h : d.records d.listed = before ++ (x, found) :: after) :
    d.alignAccessors.resolveClashes.graph.Recorded d.listed (after.map Prod.fst) x found := by
  obtain ⟨hids, rfl⟩ := records_split h
  let earlier := (before.map Prod.fst).foldl alignInterface d
  have halign : d.alignAccessors =
      (after.map Prod.fst).foldl alignInterface (earlier.alignInterface x) := by
    show d.listed.foldl alignInterface d = _
    rw [hids, List.foldl_append, List.foldl_cons]
  have hthins := thins_later halign
  by_cases hkind : earlier.graph.kind? x = some .interface
  · have hlisted : ∀ id ∈ before.map Prod.fst ++ x :: after.map Prod.fst, .entity id ∈ L :=
      hids ▸ hclosed.listed
    obtain ⟨L', hwidens, hearlier⟩ := closed_foldl closed_alignInterface hclosed.closed
      fun id hid => hlisted id (List.mem_append_left _ hid)
    have hx : .entity x ∈ L' :=
      hwidens.subset (hlisted x (List.mem_append_right _ List.mem_cons_self))
    obtain ⟨e, m, he, hinterface, hm, hfound, hmethods⟩ := found_of_interface hearlier hx hkind
    rw [hfound]
    exact Graph.recorded_overloads (rearranged_later halign) hthins he hinterface hm hmethods
  · unfold Draft.found
    rw [if_neg hkind]
    refine Graph.recorded_nil fun h => hkind ?_
    have h' := (hthins.interface x).mp h
    unfold alignInterface at h'
    rwa [if_neg hkind] at h'

/-- Nothing else is reported, and what is reported comes in the order of what is listed. -/
theorem recorded_finish {d : Draft} {L : Set Node} (hclosed : d.IsClosedOn L)
    (hnone : d.report.overloads = []) : ∃ records : List (EntityId × List Overload),
      d.finish.report.overloads = records.flatMap Prod.snd ∧
      records.map Prod.fst = d.finish.listed ∧
      ∀ before x found after, records = before ++ (x, found) :: after →
        d.finish.graph.Recorded (records.map Prod.fst) (after.map Prod.fst) x found := by
  let unaligned := d.applyReserved.foldCategories.dropRedundant
  have hbefore : unaligned.report.overloads = [] := by
    rw [(same_dropRedundant _).overloads, overloads_foldCategories,
      (same_applyReserved d).overloads]
    exact hnone
  have hlisted : d.finish.listed = unaligned.listed :=
    (same_resolveClashes unaligned.alignAccessors).listed.trans (listed_alignAccessors unaligned)
  refine ⟨unaligned.records unaligned.listed, ?_, ?_, fun before x found after h => ?_⟩
  · calc d.finish.report.overloads
        = unaligned.alignAccessors.report.overloads :=
          (same_resolveClashes unaligned.alignAccessors).overloads
      _ = unaligned.report.overloads ++ (unaligned.records unaligned.listed).flatMap Prod.snd :=
          unaligned.overloads_foldl unaligned.listed
      _ = (unaligned.records unaligned.listed).flatMap Prod.snd := by
          rw [hbefore, List.nil_append]
  · rw [map_fst_records, hlisted]
  · rw [map_fst_records]
    exact recorded_of_split hclosed.applyReserved.foldCategories.dropRedundant h

end Draft

/-! ### The finished graph -/

namespace Intake

/-- The intake reports no overloads. -/
theorem overloads_take (unit : SourceUnit) (settings : Settings) (i : Intake)
    (d : DeclRef × Declaration) :
    (i.take unit settings d).report.overloads = i.report.overloads := by
  obtain ⟨-, htake⟩ | ⟨-, f, a, -, htake⟩ | ⟨-, id, a, -, htake⟩ :=
    take_cases unit settings i d <;> rw [htake]
  unfold fail
  cases f.isIntended <;> rfl

/-- The intake reports no overloads. -/
theorem overloads_run (unit : SourceUnit) (settings : Settings) :
    (Intake.run unit settings).report.overloads = [] :=
  List.foldlRecOn (motive := fun i => i.report.overloads = []) unit.topLevel
    (Intake.take unit settings) (b := start) rfl fun i h d _ =>
      (overloads_take unit settings i d).trans h

/-- What is reported in the end has been found in the turns of the interfaces that are presented. -/
theorem Accounts.recorded {unit : SourceUnit} {settings : Settings} {i : Intake} {L : Set Node}
    (h : i.Accounts unit settings unit.topLevel) (hclosed : i.draft.IsClosedOn L)
    (hnone : i.report.overloads = []) : ∃ records : List (EntityId × List Overload),
      (Bridged.ofDraft i.draft.finish).report.overloads = records.flatMap Prod.snd ∧
      List.Forall₂ (Bridged.ofDraft i.draft.finish).graph.Holds (unit.presented settings)
        (records.map Prod.fst) ∧
      ∀ before x found after, records = before ++ (x, found) :: after →
        (Bridged.ofDraft i.draft.finish).graph.Recorded (records.map Prod.fst)
          (after.map Prod.fst) x found := by
  obtain ⟨records, hreport, hlisted, hrecorded⟩ := Draft.recorded_finish hclosed hnone
  refine ⟨records, hreport, ?_, hrecorded⟩
  rw [hlisted]
  exact Draft.listed_finish_holds h

end Intake

/-- **Overloads.** The overloads that are reported are those that have been recorded for the listed
entities, in their order. What has been recorded for an entity describes the finished graph. -/
theorem overloads_recorded (unit : SourceUnit) (settings : Settings) :
    ∃ records : List (EntityId × List Overload),
      (unit.bridge settings).report.overloads = records.flatMap Prod.snd ∧
      List.Forall₂ (unit.bridge settings).graph.Holds (unit.presented settings)
        (records.map Prod.fst) ∧
      ∀ before x found after, records = before ++ (x, found) :: after →
        (unit.bridge settings).graph.Recorded (records.map Prod.fst) (after.map Prod.fst) x
          found := by
  obtain ⟨done, hsound⟩ := Intake.sound_run unit settings
  have haccounts : (Intake.run unit settings).Accounts unit settings unit.topLevel :=
    Intake.accounts_foldl unit settings unit.topLevel
  exact haccounts.recorded hsound.isClosedOn_draft (Intake.overloads_run unit settings)

/-! ### An interface that is aligned too late -/

namespace SourceUnit

/-- A class with two methods, and a class below with a property for one of them. -/
def taggedTop : SourceUnit where
  declarations := #[plainDeclaration "Top" (.interface none ⟨[], [⟨2⟩, ⟨3⟩], []⟩ []),
    plainDeclaration "Sub" (.interface (some ⟨0⟩) ⟨[], [], [⟨4⟩]⟩ []),
    plainDeclaration "tag" (.method ⟨⟨0⟩, [], false⟩ false false false),
    plainDeclaration "tab" (.method ⟨⟨0⟩, [], false⟩ false false false),
    plainDeclaration "tag" (.property none none false false)]
  types := #[.primitive .void]

/-- Both of the methods are to be named `tag`. -/
def taggedSettings : Settings :=
  Settings.default.withRename "tab" "tag"

end SourceUnit

/-- What is dumped: the top lists one of its two methods only. -/
theorem dump_taggedTop :
    ((SourceUnit.taggedTop.bridge SourceUnit.taggedSettings).dump.entities.map fun entry =>
      entry.2.members?.map Members.instanceMethods) =
        [some [⟨2⟩], none, none, some [], none, none] := by
  cbv

/-- `Top` has lost a method to `Sub`, and there is no group of methods left; but a group had been
recorded for `Top` before. -/
theorem overload_reported_taggedTop :
    (SourceUnit.taggedTop.bridge SourceUnit.taggedSettings).report.overloads =
        [⟨"Top", "tag", 0, ["tag", "tab"]⟩] ∧
      ∀ x e m, (x, e) ∈ (SourceUnit.taggedTop.bridge SourceUnit.taggedSettings).dump.entities →
        e.members? = some m → ∀ o,
          ¬ (SourceUnit.taggedTop.bridge SourceUnit.taggedSettings).graph.IsOverload e.name
            m.instanceMethods o := by
  refine ⟨by cbv, fun x e m he hm o ho => ?_⟩
  have hmem := List.mem_map_of_mem (f := fun entry =>
    entry.2.members?.map Members.instanceMethods) he
  rw [dump_taggedTop, hm, Option.map_some] at hmem
  have hfew : m.instanceMethods.length ≤ 1 := by
    generalize m.instanceMethods = methods at hmem
    simp only [List.mem_cons, Option.some.injEq, List.not_mem_nil, or_false, false_or,
      reduceCtorEq] at hmem
    rcases hmem with rfl | rfl <;> decide
  have hselectors := ho.several
  rw [ho.selectors] at hselectors
  have := hselectors.trans (List.length_filterMap_le _ _)
  omega

end InteropGraph
