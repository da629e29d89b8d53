import InteropGraph.Proofs.Dump
import InteropGraph.Proofs.Pass.Rearranged
import Mathlib

/-!
# Protocols of containers

A container lists as its protocols what its declaration and those of its categories name as such.
When it gathers them, what is complete and no protocol is left out. What is still under construction
is not: nothing is known of it yet, and it may turn out to be no protocol. But then its construction
is what the container is made for, so that its declaration leads back to that of the container. A
class that is named among its own protocols is the smallest case.

Mathlib is imported whole for `cbv`, which evaluates the example, and which would otherwise state
equations of its own for functions of the library.
-/

namespace InteropGraph

open Assembly (Mentions)

/-- The container `c` names `p` as one of its protocols. -/
def SourceUnit.Conforms (unit : SourceUnit) (c p : DeclRef) : Prop :=
  ∃ decl refs, unit.declaration? c = some decl ∧ decl.shape.members? = some refs ∧
    p ∈ refs.protocols

/-- `c` is a category of `d`. -/
def SourceUnit.Extends (unit : SourceUnit) (c d : DeclRef) : Prop :=
  ∃ decl refs, unit.declaration? c = some decl ∧ decl.shape = .category d refs

/-- `c` names `p` as a protocol, and the construction of `p` may ask for `c`. -/
structure SourceUnit.Entwined (unit : SourceUnit) (c p : DeclRef) : Prop where
  conforms : unit.Conforms c p
  leads : Relation.TransGen (Mentions unit) (.decl p) (.decl c)

theorem SourceUnit.Conforms.mentions {unit : SourceUnit} {c p : DeclRef} (h : unit.Conforms c p) :
    Mentions unit (.decl c) (.decl p) := by
  obtain ⟨decl, refs, hdecl, hrefs, hp⟩ := h
  refine .request hdecl (List.mem_append_right _ (List.mem_flatMap.mpr ⟨refs, ?_, ?_⟩))
  · exact Option.mem_toList.mpr hrefs
  · exact List.mem_append_left _ (List.mem_append_left _ hp)

/-- A category has been made of one. -/
theorem Assembly.Describes.extended {unit : SourceUnit} {a : Assembly} {shape : Shape} {e : Entity}
    (h : Assembly.Describes unit a shape e.detail) {x : EntityId}
    (he : e.category?.map Prod.snd = some x) :
    ∃ refs d, shape = .category d refs ∧ a.answer? d = some (.ok x) := by
  unfold Entity.category? at he
  cases hdetail : e.detail with
  | category m x' =>
    rw [hdetail] at h he
    cases he
    cases h with
    | category entity _ => exact ⟨_, _, rfl, entity⟩
  | _ =>
    rw [hdetail] at he
    cases he

namespace Intake

variable {unit : SourceUnit} {settings : Settings} {done : List DeclRef} {i : Intake}
  {g : Graph}

/-- The entity at `q` may be listed as a protocol of the entity of `d`: some category of `d`, or
`d` itself, names it as such, and it is a protocol or entwined with that. -/
def MayList (unit : SourceUnit) (a : Assembly) (d : DeclRef) (q : EntityId) : Prop :=
  ∃ c p, Relation.ReflTransGen unit.Extends c d ∧ unit.Conforms c p ∧ a.answer? p = some (.ok q) ∧
    (a.graph.kind? q = some .protocol ∨ unit.Entwined c p)

/-- What a container has gathered it may list. -/
theorem mayList_of_contained {a : Assembly} (h : Assembly.Contained unit [] a)
    (hsound : Assembly.Sound unit settings [] a) {d : DeclRef} {x : EntityId} {m : Members}
    (hx : a.answer? d = some (.ok x)) (hm : a.graph.members? x = some m) :
    ∀ q ∈ m.protocols, MayList unit a d q := by
  intro q hq
  obtain ⟨decl, refs, stack, hdecl, hrefs, hnested, hgathered⟩ := h.gatheredWithin hsound hx hm
  obtain ⟨p, hp, hprotocol⟩ := hgathered.protocols q hq
  have hconforms : unit.Conforms d p := ⟨decl, refs, hdecl, hrefs, hp⟩
  refine ⟨d, p, .refl, hconforms, hprotocol.answer, hprotocol.kind.symm.imp_right fun hstack => ?_⟩
  rcases List.mem_cons.mp hstack with rfl | hstack
  · exact ⟨hconforms, .single hconforms.mentions⟩
  · exact ⟨hconforms, hnested.mentions hstack⟩

/-- A listed category that extends the entity of `d` has been made of a category of `d`. -/
theorem Sound.extends_of_extension (h : Sound unit settings done i)
    (hg : i.assembly.graph.Retains g) {d : DeclRef} {x : EntityId} {additions : Members}
    (hx : i.assembly.answer? d = some (.ok x)) (hextension : g.Extension i.made x additions) :
    ∃ c y, unit.Extends c d ∧ i.assembly.answer? c = some (.ok y) ∧
      g.members? y = some additions := by
  obtain ⟨y, hy, hcategory⟩ := hextension
  obtain ⟨c, -, hc⟩ := h.made y hy
  obtain ⟨decl, e₀, he₀, hcomplete⟩ := h.assembly.complete_of_answer hc
  obtain ⟨e, he, hsame⟩ := hg.kept he₀
  rw [he, Option.bind_some] at hcategory
  have hextended : e₀.category?.map Prod.snd = some x := by
    rw [← hsame.extended, hcategory]
    rfl
  have hextends : unit.Extends c d := by
    obtain ⟨refs, d', hshape, hd'⟩ := hcomplete.describes.extended hextended
    obtain rfl := h.assembly.ready_inj hd' hx
    exact ⟨decl, refs, hcomplete.declared, hshape⟩
  refine ⟨c, y, hextends, hc, Graph.members?_eq_some_iff.mpr ⟨e, he, ?_⟩⟩
  exact Entity.members?_of_category? hcategory

/-- Protocols come into a container only from its categories. -/
theorem Sound.mayList_of_rearranged (h : Sound unit settings done i)
    (hcontained : Assembly.Contained unit [] i.assembly)
    (hrun : i.assembly.graph.Rearranged i.made g) :
    ∀ d x m, i.assembly.answer? d = some (.ok x) → g.members? x = some m →
      ∀ q ∈ m.protocols, MayList unit i.assembly d q := by
  induction hrun with
  | refl => exact fun _ _ _ => mayList_of_contained hcontained h.assembly
  | tail hrun hstep ih =>
    intro d x m' hx hm' q hq
    obtain ⟨m, hm, -, hprotocols⟩ := hstep.members hm'
    rcases hprotocols q hq with hold | ⟨additions, hextension, hadded⟩
    · exact ih d x m hx hm q hold
    · obtain ⟨c, y, hextends, hy, hadditions⟩ :=
        h.extends_of_extension (Graph.Rearranged.retains hrun) hx hextension
      obtain ⟨c', p, hc', hrest⟩ := ih c y additions hy hadditions q hadded
      exact ⟨c', p, hc'.tail hextends, hrest⟩

/-- What a presented container lists as a protocol is one, or is entwined with the declaration that
names it. -/
theorem Sound.protocol_of_mem_dump (h : Sound unit settings done i)
    (hcontained : Assembly.Contained unit [] i.assembly) {x q : EntityId} {e : Entity}
    {m : Members} (he : (x, e) ∈ (Bridged.ofDraft i.draft.finish).dump.entities)
    (hm : e.members? = some m) (hq : q ∈ m.protocols) :
    ∃ p, (q, p) ∈ (Bridged.ofDraft i.draft.finish).dump.entities ∧ (p.kind = .protocol ∨
      ∃ d c s, e.source = some d ∧ Relation.ReflTransGen unit.Extends c d ∧ p.source = some s ∧
        unit.Entwined c s) := by
  obtain ⟨d, decl, e₀, hmade⟩ := h.made_of_members he hm
  have hclosed : (Bridged.ofDraft i.draft.finish).dump.IsClosed :=
    Bridged.dump_ofDraft_isClosed (Draft.IsClosed.finish ⟨_, h.isClosedOn_draft.closed,
      h.isClosedOn_draft.listed⟩)
  have hreference : .entity q ∈ e.detail.references :=
    Entity.references_of_members? hm (List.mem_map.mpr ⟨q, List.mem_append_right _ hq, rfl⟩)
  obtain ⟨p, hp⟩ := hclosed.entities x e he _ hreference
  refine ⟨p, hp, ?_⟩
  have hrun := Draft.rearranged_finish i.draft
  have hmembers : i.draft.finish.graph.members? x = some m :=
    Graph.members?_eq_some_iff.mpr ⟨e, (Graph.mem_dump_entities.mp he).1, hm⟩
  obtain ⟨c, s, hextends, -, hs, hkind⟩ :=
    h.mayList_of_rearranged hcontained hrun d x m hmade.answer hmembers q hq
  obtain ⟨_, p₀, hp₀, hcomplete⟩ := h.assembly.complete_of_answer hs
  obtain ⟨p', hp', hsame⟩ := hrun.retains.kept hp₀
  obtain rfl : p = p' := Option.some.inj ((Graph.mem_dump_entities.mp hp).1.symm.trans hp')
  refine hkind.imp (fun hkind => ?_) fun hentwined => ?_
  · unfold Graph.kind? at hkind
    rw [show i.assembly.graph.entity? q = some p₀ from hp₀] at hkind
    exact hsame.kind.trans (Option.some.inj hkind)
  · exact ⟨d, c, s, hmade.same.source.trans hmade.complete.source, hextends,
      hsame.source.trans hcomplete.source, hentwined⟩

end Intake

/-- **Protocols of containers.** What a container lists as a protocol is presented with it. It is a
protocol, or the entity of a declaration that leads back to the container, or to a category of the
container, that names it as a protocol. -/
theorem protocol_or_entwined (unit : SourceUnit) (settings : Settings) {x q : EntityId} {e : Entity}
    {m : Members} (he : (x, e) ∈ (unit.bridge settings).dump.entities)
    (hm : e.members? = some m) (hq : q ∈ m.protocols) :
    ∃ p, (q, p) ∈ (unit.bridge settings).dump.entities ∧ (p.kind = .protocol ∨
      ∃ d c s, e.source = some d ∧ Relation.ReflTransGen unit.Extends c d ∧ p.source = some s ∧
        unit.Entwined c s) := by
  obtain ⟨done, hsound⟩ := Intake.sound_run unit settings
  exact hsound.protocol_of_mem_dump (Intake.contained_run unit settings) he hm hq

/-! ### A class among its own protocols -/

/-- Two classes that name the first of them as a protocol. -/
def SourceUnit.ownProtocol : SourceUnit where
  declarations := #[plainDeclaration "A" (.interface none ⟨[⟨0⟩], [], []⟩ []),
    plainDeclaration "B" (.interface none ⟨[⟨0⟩], [], []⟩ [])]
  types := #[]

/-- The second class is made when the first one is complete, and does not list it. -/
theorem dump_ownProtocol :
    ((SourceUnit.ownProtocol.bridge .default).dump.entities.map fun entry =>
      (entry.1, entry.2.kind, entry.2.members?.map Members.protocols)) =
        [(⟨0⟩, .interface, some [⟨0⟩]), (⟨1⟩, .interface, some [])] := by
  cbv

theorem ownProtocol_lists_itself : ∃ e m,
    (⟨0⟩, e) ∈ (SourceUnit.ownProtocol.bridge .default).dump.entities ∧
      e.members? = some m ∧ ⟨0⟩ ∈ m.protocols ∧ e.kind = .interface := by
  have hmem : (⟨0⟩, .interface, some [⟨0⟩]) ∈
      (SourceUnit.ownProtocol.bridge .default).dump.entities.map fun entry =>
        (entry.1, entry.2.kind, entry.2.members?.map Members.protocols) := by
    rw [dump_ownProtocol]
    exact List.mem_cons_self
  obtain ⟨⟨x, e⟩, he, hentry⟩ := List.mem_map.mp hmem
  simp only [Prod.mk.injEq] at hentry
  obtain ⟨rfl, hkind, hprotocols⟩ := hentry
  obtain ⟨m, hm, hlist⟩ := Option.map_eq_some_iff.mp hprotocols
  refine ⟨e, m, he, hm, ?_, hkind⟩
  rw [hlist]
  exact List.mem_cons_self

/-- The class that lists itself is entwined with itself. -/
theorem protocol_or_entwined_ownProtocol : ∃ e m,
    (⟨0⟩, e) ∈ (SourceUnit.ownProtocol.bridge .default).dump.entities ∧
      e.members? = some m ∧ ⟨0⟩ ∈ m.protocols ∧ ∃ p,
        (⟨0⟩, p) ∈ (SourceUnit.ownProtocol.bridge .default).dump.entities ∧
          (p.kind = .protocol ∨ ∃ d c s, e.source = some d ∧
            Relation.ReflTransGen SourceUnit.ownProtocol.Extends c d ∧ p.source = some s ∧
              SourceUnit.ownProtocol.Entwined c s) := by
  obtain ⟨e, m, he, hm, hq, -⟩ := ownProtocol_lists_itself
  exact ⟨e, m, he, hm, hq, protocol_or_entwined SourceUnit.ownProtocol .default he hm hq⟩

/-- **A class as a protocol.** The first class lists itself as a protocol, and is none. -/
theorem class_listed_as_protocol : ∃ x e m q p,
    (x, e) ∈ (SourceUnit.ownProtocol.bridge .default).dump.entities ∧
      e.members? = some m ∧ q ∈ m.protocols ∧
        (q, p) ∈ (SourceUnit.ownProtocol.bridge .default).dump.entities ∧
          p.kind ≠ .protocol := by
  obtain ⟨e, m, he, hm, hq, hkind⟩ := ownProtocol_lists_itself
  refine ⟨⟨0⟩, e, m, ⟨0⟩, e, he, hm, hq, he, ?_⟩
  rw [hkind]
  decide

end InteropGraph
