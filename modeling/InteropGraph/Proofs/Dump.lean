import InteropGraph.Proofs.Assembly.Containers
import InteropGraph.Proofs.Presented

/-!
# Where the entities of a dump come from

What can be reached in the end is, but for its members and its name, what the intake has made of a
declaration; the rest are properties that the passes have added (`Intake.Sound.origin_of_mem_dump`).
In particular every container of a dump has been made of a declaration, and is listed when the
passes begin if the policy includes that.
-/

namespace InteropGraph

/-- What is in the dump of a draft is in every closed set of it. -/
theorem Bridged.mem_of_mem_dump {d : Draft} {L : Set Node} (h : d.IsClosedOn L) {id : EntityId}
    {e : Entity} (he : (id, e) ∈ (ofDraft d).dump.entities) :
    d.graph.entity? id = some e ∧ .entity id ∈ L := by
  obtain ⟨hentity, hreach⟩ := Graph.mem_dump_entities.mp he
  refine ⟨hentity, h.closed.of_reaches (fun j hj => h.listed j ?_) hreach⟩
  exact Modules.mem_of_mem_ids_partition hj

theorem Assembly.Describes.kind_eq {unit : SourceUnit} {a : Assembly} {shape : Shape}
    {detail : Detail} (h : Assembly.Describes unit a shape detail) :
    detail.kind = shape.entityKind := by
  cases h <;> rfl

namespace Intake

variable {unit : SourceUnit} {settings : Settings} {done : List DeclRef} {i : Intake}

/-- The intake keeps what requests keep. -/
theorem assembly_foldl {I : Assembly → Prop} {l : List (DeclRef × Declaration)}
    (hcreate : ∀ d ∈ l, ∀ a, I a → I ((Assembly.create unit settings d.1 "").run a).2)
    (hi : I i.assembly) : I (l.foldl (Intake.take unit settings) i).assembly := by
  refine List.foldlRecOn (motive := fun i => I i.assembly) l (Intake.take unit settings) hi
    fun i hi d hd => ?_
  have hcreated := hcreate d hd i.assembly hi
  obtain ⟨-, htake⟩ | ⟨-, f, a, hrun, htake⟩ | ⟨-, id, a, hrun, htake⟩ :=
    take_cases unit settings i d
  · rw [htake]
    exact hi
  · rw [hrun] at hcreated
    rw [htake]
    exact hcreated
  · rw [hrun] at hcreated
    rw [htake]
    exact hcreated

theorem contained_run (unit : SourceUnit) (settings : Settings) :
    Assembly.Contained unit [] (Intake.run unit settings).assembly :=
  assembly_foldl (fun _ hd a ha => (Assembly.create_contained hd "" a ha).2) (.empty unit)

theorem Sound.isClosedOn_draft (h : Sound unit settings done i) :
    i.draft.IsClosedOn {n | Assembly.Live unit i.assembly n} where
  closed := h.assembly.closed
  listed id hid := by
    obtain ⟨d, -, hd⟩ := h.made id hid
    exact ⟨d, hd⟩

/-- The entity at a place has been made of the declaration at `d`, and `e` has its origin. -/
structure Made (unit : SourceUnit) (settings : Settings) (a : Assembly) (id : EntityId)
    (e : Entity) (d : DeclRef) (decl : Declaration) (e₀ : Entity) : Prop where
  answer : a.answer? d = some (.ok id)
  entity : a.graph.entity? id = some e₀
  complete : Assembly.Complete unit settings a d decl e₀
  same : e₀.SameOrigin e

/-- What is presented in the end has been made of a declaration, or is a property that the passes
have added. -/
theorem Sound.origin_of_mem_dump (h : Sound unit settings done i) {id : EntityId} {e : Entity}
    (he : (id, e) ∈ (Bridged.ofDraft i.draft.finish).dump.entities) :
    (∃ d decl e₀, Made unit settings i.assembly id e d decl e₀) ∨
      e.source = none ∧ e.kind = .property := by
  obtain ⟨L, hwidens, hclosed⟩ := h.isClosedOn_draft.finish
  obtain ⟨hentity, hL⟩ := Bridged.mem_of_mem_dump hclosed he
  rcases hwidens.added _ hL with ⟨d, hd⟩ | ⟨id', e', hid, he', hs⟩
  · obtain ⟨decl, e₀, he₀, hcomplete⟩ := h.assembly.complete_of_answer hd
    obtain ⟨e', he', hsame⟩ := hwidens.retains.graph.kept he₀
    obtain rfl : e = e' := Option.some.inj (hentity.symm.trans he')
    exact .inl ⟨d, decl, e₀, hd, he₀, hcomplete, hsame⟩
  · cases hid
    obtain rfl : e = e' := Option.some.inj (hentity.symm.trans he')
    exact .inr hs

/-- An entity with a source that is presented in the end is, but for its members and its name, the
one that has been made of its source. -/
theorem Sound.made_of_source (h : Sound unit settings done i) {id : EntityId} {e : Entity}
    (he : (id, e) ∈ (Bridged.ofDraft i.draft.finish).dump.entities) {d : DeclRef}
    (hd : e.source = some d) {decl : Declaration} (hdecl : unit.declaration? d = some decl) :
    ∃ e₀, Made unit settings i.assembly id e d decl e₀ := by
  rcases h.origin_of_mem_dump he with ⟨x, decl', e₀, hmade⟩ | ⟨hs, -⟩
  · obtain rfl : x = d := Option.some.inj
      (hmade.complete.source.symm.trans (hmade.same.source.symm.trans hd))
    obtain rfl : decl = decl' := Option.some.inj (hdecl.symm.trans hmade.complete.declared)
    exact ⟨e₀, hmade⟩
  · cases hs.symm.trans hd

theorem Sound.made_of_members (h : Sound unit settings done i) {id : EntityId} {e : Entity}
    (he : (id, e) ∈ (Bridged.ofDraft i.draft.finish).dump.entities) {m : Members}
    (hm : e.members? = some m) : ∃ d decl e₀, Made unit settings i.assembly id e d decl e₀ := by
  rcases h.origin_of_mem_dump he with hmade | ⟨-, hkind⟩
  · exact hmade
  · rcases Entity.kind_of_members? hm with hk | hk | hk <;> cases hk.symm.trans hkind

/-- A container has been made of the declaration of a container. -/
theorem Made.exists_refs {a : Assembly} {id : EntityId} {e e₀ : Entity} {d : DeclRef}
    {decl : Declaration} (h : Made unit settings a id e d decl e₀) {m : Members}
    (hm : e.members? = some m) : ∃ refs, decl.shape.members? = some refs := by
  have hkind : e.kind = decl.shape.entityKind := h.same.kind.trans h.complete.describes.kind_eq
  rw [Shape.exists_members?_iff, ← hkind]
  exact Entity.kind_of_members? hm

end Intake

/-! ### What is included -/

/-- A top-level declaration that the policy includes is listed if it has an entity, whoever has
asked for that. -/
theorem Intake.Accounts.mem_made {unit : SourceUnit} {settings : Settings} {i : Intake}
    (h : i.Accounts unit settings unit.topLevel) {d : DeclRef} {decl : Declaration} {id : EntityId}
    (hanswer : i.assembly.answer? d = some (.ok id)) (hdecl : unit.declaration? d = some decl)
    (htop : decl.shape.isTopLevel = true) (hincluded : settings.includes decl = true) :
    id ∈ i.made := by
  have hcan : unit.canMake settings (d, decl) = true := by
    rw [h.canMake_eq, hincluded, Bool.true_and]
    exact (h.sound.create_isOk_iff d "").mpr ⟨_, h.sound.consistent, id, hanswer⟩
  obtain ⟨id', hid', hanswer'⟩ := h.made.exists_right
    (List.mem_filter.mpr ⟨SourceUnit.mem_topLevel_iff.mpr ⟨hdecl, htop⟩, hcan⟩)
  obtain rfl : id' = id := Except.ok.inj (Option.some.inj (hanswer'.symm.trans hanswer))
  exact hid'

end InteropGraph
