import InteropGraph.Proofs.Dump
import InteropGraph.Proofs.Pass.Rearranged
import Mathlib

/-!
# Reserved methods

`Draft.dropReserved` takes the reserved methods out of the containers that are listed, and no later
pass brings one back into such a container: what is moved there comes from a container that is
listed itself (`Graph.Clean`). A container that is not listed is left as it was made. This happens
if the policy excludes it while something else refers to it, as a class to its base; so a dump may
show reserved methods, though only in containers that the policy excludes.

Mathlib is imported whole for `cbv`, which evaluates the example, and which would otherwise state
equations of its own for functions of the library.
-/

namespace InteropGraph

namespace Graph

/-- The methods of the container at `x` exist, and none has a reserved name. -/
def Clean (g : Graph) (x : EntityId) : Prop :=
  ∀ m, g.members? x = some m → ∀ k : MemberList, k.kind = .method → ∀ i ∈ m.list k,
    ∃ e, g.entity? i = some e ∧ e.name ∉ reservedSelectors

variable {g g' : Graph} {L : List EntityId}

/-- What is moved to a listed container comes from a listed container. -/
theorem Rearranges.clean (h : g.Rearranges L g') (hclean : ∀ x ∈ L, g.Clean x) :
    ∀ x ∈ L, g'.Clean x := by
  intro x hx m' hm' k hk i hi
  obtain ⟨m, hm, hlists, -⟩ := h.members hm'
  have hbefore : ∃ e, g.entity? i = some e ∧ e.name ∉ reservedSelectors := by
    rcases hlists k with hsublist | ⟨hmem, -⟩
    · exact hclean x hx m hm k hk i (hsublist.subset hi)
    · rcases hmem i hi with hold | ⟨additions, hextension, hadded⟩ | hmadeUp
      · exact hclean x hx m hm k hk i hold
      · obtain ⟨c, hc, hmembers⟩ := hextension.members?
        exact hclean c hc additions hmembers k hk i hadded
      · -- only properties are made up
        cases (hmadeUp.list ▸ hk : MemberList.instanceProperties.kind = .method)
  obtain ⟨e, he, hname⟩ := hbefore
  obtain ⟨e', he', hsame⟩ := h.retains.kept he
  exact ⟨e', he', hsame.name ▸ hname⟩

/-- A listed container without reserved methods does not get any: what is added to it comes from a
listed category, or is a property. -/
theorem Rearranged.clean (h : g.Rearranged L g') (hclean : ∀ x ∈ L, g.Clean x) :
    ∀ x ∈ L, g'.Clean x := by
  induction h with
  | refl => exact hclean
  | tail _ hstep ih => exact hstep.clean ih

/-- Whether an entity can be shown does not depend on what it lists. -/
theorem isPresentable_mapMembers (g : Graph) (id : EntityId) (f : Members → Members)
    (i : EntityId) : (g.mapMembers id f).isPresentable i = g.isPresentable i := by
  unfold isPresentable mapMembers
  rw [entity?_modify]
  by_cases hi : i = id
  · rw [if_pos hi, hi]
    cases g.entity? id <;> rfl
  · rw [if_neg hi]

end Graph

/-! ### The pass -/

namespace Draft

variable {d : Draft} {L : Set Node}

/-- The methods of the container at `x` are presentable, if they exist. -/
def HidesReserved (d : Draft) (x : EntityId) : Prop :=
  ∀ m, d.graph.members? x = some m → ∀ k : MemberList, k.kind = .method →
    ∀ i ∈ m.list k, d.graph.isPresentable i = true

/-- After its turn a container lists no reserved method. -/
theorem hidesReserved_dropReservedFrom (d : Draft) (id : EntityId) :
    (d.dropReservedFrom id).HidesReserved id := by
  unfold dropReservedFrom
  cases hm : d.graph.members? id with
  | none =>
    intro m hm'
    cases hm.symm.trans hm'
  | some m =>
    intro m' hm' k hk i hi
    rw [show (d.replaceMembers id m _).graph = d.graph.mapMembers id _ from rfl,
      Graph.members?_mapMembers, if_pos rfl, hm] at hm'
    cases hm'
    rw [show (d.replaceMembers id m _).graph = d.graph.mapMembers id _ from rfl,
      Graph.isPresentable_mapMembers]
    cases k with
    | instanceMethods | staticMethods => exact (List.mem_filter.mp hi).2
    | instanceProperties | staticProperties => cases hk

/-- The other containers stay as they are. -/
theorem HidesReserved.dropReservedFrom {x : EntityId} (h : d.HidesReserved x) (id : EntityId) :
    (d.dropReservedFrom id).HidesReserved x := by
  by_cases hx : x = id
  · rw [hx]
    exact hidesReserved_dropReservedFrom d id
  · unfold Draft.dropReservedFrom
    cases d.graph.members? id with
    | none => exact h
    | some m =>
      intro m' hm' k hk i hi
      rw [show (d.replaceMembers id m _).graph = d.graph.mapMembers id _ from rfl] at hm' ⊢
      rw [Graph.members?_mapMembers, if_neg hx] at hm'
      rw [Graph.isPresentable_mapMembers]
      exact h m' hm' k hk i hi

/-- The turn of every listed container comes, and no later one adds anything. -/
theorem hidesReserved_dropReserved (d : Draft) :
    ∀ x ∈ d.listed, d.dropReserved.HidesReserved x := by
  unfold dropReserved forListed
  generalize d.listed = ids
  have hkept {x : EntityId} (l : List EntityId) {d : Draft} (h : d.HidesReserved x) :
      (l.foldl dropReservedFrom d).HidesReserved x :=
    List.foldlRecOn (motive := fun d' => d'.HidesReserved x) l dropReservedFrom h
      fun _ h' id _ => h'.dropReservedFrom id
  induction ids generalizing d with
  | nil => exact nofun
  | cons id ids ih =>
    intro x hx
    rcases List.mem_cons.mp hx with rfl | hx
    · exact hkept ids (hidesReserved_dropReservedFrom d x)
    · exact ih (d.dropReservedFrom id) x hx

/-- The members of what is listed are in the closed set, so they exist. -/
theorem IsClosedOn.clean_dropReserved (h : d.IsClosedOn L) :
    ∀ x ∈ d.listed, d.dropReserved.graph.Clean x := by
  intro x hx m hm k hk i hi
  have hclosed := h.dropReserved.closed
  obtain ⟨e, he⟩ := hclosed.exists_member (h.listed x hx) hm hi
  have hpresentable := hidesReserved_dropReserved d x hx m hm k hk i hi
  unfold Graph.isPresentable at hpresentable
  replace he : d.dropReserved.graph.entity? i = some e := he
  rw [he] at hpresentable
  exact ⟨e, he, of_decide_eq_true hpresentable⟩

end Draft

/-! ### The finished graph -/

/-- What is listed when the passes begin shows no reserved methods in the end. -/
theorem Intake.Sound.clean_finish {unit : SourceUnit} {settings : Settings} {done : List DeclRef}
    {i : Intake} (h : i.Sound unit settings done) :
    ∀ x ∈ i.made, (Bridged.ofDraft i.draft.finish).graph.Clean x :=
  (Draft.rearranged_afterReserved i.draft).clean h.isClosedOn_draft.clean_dropReserved

/-- **Reserved methods.** If a container that is presented lists a method with a reserved name, then
it has been made of a declaration that the policy excludes. -/
theorem reserved_only_if_excluded (unit : SourceUnit) (settings : Settings) {x i : EntityId}
    {e method : Entity} {m : Members} (he : (x, e) ∈ (unit.bridge settings).dump.entities)
    (hm : e.members? = some m) (hi : i ∈ m.instanceMethods ++ m.staticMethods)
    (hmethod : (unit.bridge settings).graph.entity? i = some method)
    (hname : method.name ∈ reservedSelectors) :
    ∃ d decl, e.source = some d ∧ unit.declaration? d = some decl ∧
      settings.includes decl = false := by
  obtain ⟨done, hsound⟩ := Intake.sound_run unit settings
  obtain ⟨d, decl, e₀, hmade⟩ := hsound.made_of_members he hm
  obtain ⟨refs, hrefs⟩ := hmade.exists_refs hm
  refine ⟨d, decl, hmade.same.source.trans hmade.complete.source, hmade.complete.declared, ?_⟩
  by_contra hincluded
  -- a container that the policy includes is listed, so its methods have been taken out
  have hlisted : x ∈ (Intake.run unit settings).made :=
    (Intake.accounts_foldl unit settings unit.topLevel).mem_made hmade.answer
      hmade.complete.declared (Shape.isTopLevel_of_members? hrefs)
      ((Bool.not_eq_false _).mp hincluded)
  have hmembers : (unit.bridge settings).graph.members? x = some m :=
    Graph.members?_eq_some_iff.mpr ⟨e, (Graph.mem_dump_entities.mp he).1, hm⟩
  have hlist : ∃ k : MemberList, k.kind = .method ∧ i ∈ m.list k := by
    rcases List.mem_append.mp hi with hi | hi
    · exact ⟨.instanceMethods, rfl, hi⟩
    · exact ⟨.staticMethods, rfl, hi⟩
  obtain ⟨k, hk, hi⟩ := hlist
  have hclean : (unit.bridge settings).graph.Clean x := hsound.clean_finish x hlisted
  obtain ⟨e', he', hfree⟩ := hclean m hmembers k hk i hi
  obtain rfl : method = e' := Option.some.inj (hmethod.symm.trans he')
  exact hfree hname

/-! ### A base that the policy excludes -/

/-- A class whose base declares `retain`. -/
def SourceUnit.hiddenBase : SourceUnit where
  declarations := #[plainDeclaration "Base" (.interface none ⟨[], [⟨2⟩], []⟩ []),
    plainDeclaration "Sub" (.interface (some ⟨0⟩) .empty []),
    plainDeclaration "retain" (.method ⟨⟨0⟩, [], false⟩ false false false)]
  types := #[.primitive .void]

/-- Settings that leave out what is called `Base`. -/
def Settings.withoutBase : Settings :=
  { Settings.default with policy := (Policy.parse [] ["M:Base"]).toOption.getD .all }

/-- The class is presented, and with it its base and the method of that. -/
theorem dump_hiddenBase :
    ((SourceUnit.hiddenBase.bridge .withoutBase).dump.entities.map fun entry =>
      (entry.1, entry.2.name, entry.2.members?.map Members.instanceMethods)) =
        [(⟨0⟩, "Sub", some []), (⟨1⟩, "Base", some [⟨2⟩]), (⟨2⟩, "retain", none)] := by
  cbv

/-- The base is not listed, since it is excluded, but it is dumped with the method that it lists. -/
theorem hiddenBase_shows_retain : ∃ base m retain,
    (⟨1⟩, base) ∈ (SourceUnit.hiddenBase.bridge .withoutBase).dump.entities ∧
      base.members? = some m ∧ ⟨2⟩ ∈ m.instanceMethods ++ m.staticMethods ∧
        (⟨2⟩, retain) ∈ (SourceUnit.hiddenBase.bridge .withoutBase).dump.entities ∧
          retain.name = "retain" := by
  have hmap (entry : EntityId × String × Option (List EntityId))
      (h : entry ∈ [(⟨0⟩, "Sub", some []), (⟨1⟩, "Base", some [⟨2⟩]), (⟨2⟩, "retain", none)]) :
      ∃ e : Entity, (entry.1, e) ∈ (SourceUnit.hiddenBase.bridge .withoutBase).dump.entities ∧
        e.name = entry.2.1 ∧ e.members?.map Members.instanceMethods = entry.2.2 := by
    rw [← dump_hiddenBase] at h
    obtain ⟨⟨x, e⟩, he, rfl⟩ := List.mem_map.mp h
    exact ⟨e, he, rfl, rfl⟩
  obtain ⟨base, hbase, -, hmembers⟩ := hmap (⟨1⟩, "Base", some [⟨2⟩]) (by decide)
  obtain ⟨retain, hretain, hname, -⟩ := hmap (⟨2⟩, "retain", none) (by decide)
  obtain ⟨m, hm, hlist⟩ := Option.map_eq_some_iff.mp hmembers
  refine ⟨base, m, retain, hbase, hm, ?_, hretain, hname⟩
  rw [hlist]
  exact List.mem_append_left _ List.mem_cons_self

/-- The base that lists `retain` is excluded. -/
theorem reserved_only_if_excluded_hiddenBase : ∃ base m retain,
    (⟨1⟩, base) ∈ (SourceUnit.hiddenBase.bridge .withoutBase).dump.entities ∧
      base.members? = some m ∧ ⟨2⟩ ∈ m.instanceMethods ++ m.staticMethods ∧
        (SourceUnit.hiddenBase.bridge .withoutBase).graph.entity? ⟨2⟩ = some retain ∧
          retain.name ∈ reservedSelectors ∧ ∃ d decl, base.source = some d ∧
            SourceUnit.hiddenBase.declaration? d = some decl ∧
              Settings.withoutBase.includes decl = false := by
  obtain ⟨base, m, retain, hbase, hm, hlist, hretain, hname⟩ := hiddenBase_shows_retain
  have hentity := (Graph.mem_dump_entities.mp hretain).1
  have hreserved : retain.name ∈ reservedSelectors := by
    rw [hname]
    exact List.mem_cons_self
  exact ⟨base, m, retain, hbase, hm, hlist, hentity, hreserved,
    reserved_only_if_excluded _ _ hbase hm hlist hentity hreserved⟩

/-- **A base keeps its reserved methods.** The base of a class is presented with the class, though
the policy excludes it, and it lists `retain`. -/
theorem reserved_shown_hiddenBase : ∃ x e m i method,
    (x, e) ∈ (SourceUnit.hiddenBase.bridge .withoutBase).dump.entities ∧
      e.members? = some m ∧ i ∈ m.instanceMethods ++ m.staticMethods ∧
        (i, method) ∈ (SourceUnit.hiddenBase.bridge .withoutBase).dump.entities ∧
          method.name ∈ reservedSelectors := by
  obtain ⟨base, m, retain, hbase, hm, hlist, hretain, hname⟩ := hiddenBase_shows_retain
  refine ⟨⟨1⟩, base, m, ⟨2⟩, retain, hbase, hm, hlist, hretain, ?_⟩
  rw [hname]
  exact List.mem_cons_self

end InteropGraph
