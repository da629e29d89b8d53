import InteropGraph.Proofs.Pass.Listed
import InteropGraph.Proofs.Graph.Basic

/-!
# What passes leave alone

Passes rename entities, and move and remove members; aligned accessors bring entities of their own.
No pass touches what has been taken from a declaration: the source of an entity, its module and its
native name stay, whether it is static, and what it is but for its members; and an entity with a
source has been there from the start (`Graph.Retains`). The counts of the intake stay as well.
-/

namespace InteropGraph

/-- The types that an entity carries, in fields, in a variable or in a signature. -/
def Detail.types : Detail → List TypeId
  | .struct fields => fields.map EntityField.type
  | .function signature => signature
  | .variable t _ => [t]
  | .method signature _ => signature
  | _ => []

/-- What an entity is, but for its members. -/
def Entity.outline (e : Entity) : Detail :=
  (e.mapMembers fun _ => .empty).detail

/-- What the declaration of an entity determines is the same in both. -/
structure Entity.SameOrigin (e e' : Entity) : Prop where
  source : e'.source = e.source
  module : e'.module = e.module
  name : e'.name = e.name
  static : e'.flags.static = e.flags.static
  outline : e'.outline = e.outline

/-- How the intake has gone: what was created, skipped, failed and excluded. -/
def Report.intake (r : Report) : Nat × Nat × Nat × Nat :=
  (r.created, r.skipped, r.failed, r.excluded)

namespace Entity.SameOrigin

variable {e e' : Entity}

theorem refl (e : Entity) : e.SameOrigin e := ⟨rfl, rfl, rfl, rfl, rfl⟩

theorem trans {e₁ e₂ e₃ : Entity} (h : e₁.SameOrigin e₂) (h' : e₂.SameOrigin e₃) :
    e₁.SameOrigin e₃ where
  source := h'.source.trans h.source
  module := h'.module.trans h.module
  name := h'.name.trans h.name
  static := h'.static.trans h.static
  outline := h'.outline.trans h.outline

theorem symm (h : e.SameOrigin e') : e'.SameOrigin e :=
  ⟨h.source.symm, h.module.symm, h.name.symm, h.static.symm, h.outline.symm⟩

/-- Members are not taken into account. -/
theorem mapMembers (e : Entity) (f : Members → Members) : e.SameOrigin (e.mapMembers f) := by
  refine ⟨rfl, rfl, rfl, rfl, ?_⟩
  unfold Entity.outline Entity.mapMembers
  cases e.detail <;> rfl

theorem asAccessor (e : Entity) : e.SameOrigin e.asAccessor := ⟨rfl, rfl, rfl, rfl, rfl⟩

/-- What an outline shows is the same in both. -/
theorem of_outline {α : Type} (h : e.SameOrigin e') {f : Detail → α}
    (hf : ∀ e : Entity, f e.outline = f e.detail) : f e'.detail = f e.detail := by
  rw [← hf e', h.outline, hf]

/-- The same kind: details differ in their members at most. -/
theorem kind (h : e.SameOrigin e') : e'.kind = e.kind := by
  refine h.of_outline fun e => ?_
  unfold Entity.outline Entity.mapMembers
  cases e.detail <;> rfl

/-- The same types, in the same order. -/
theorem types (h : e.SameOrigin e') : e'.detail.types = e.detail.types := by
  refine h.of_outline fun e => ?_
  unfold Entity.outline Entity.mapMembers
  cases e.detail <;> rfl

/-- The same base. -/
theorem base? (h : e.SameOrigin e') : e'.base? = e.base? := by
  let base? (detail : Detail) : Option EntityId := (Entity.plain "" "" detail).base?
  have hbase (e : Entity) : base? e.outline = base? e.detail := by
    unfold Entity.outline Entity.mapMembers
    cases e.detail <;> rfl
  exact h.of_outline hbase

/-- The same number of parameters. -/
theorem arity (h : e.SameOrigin e') : e'.arity = e.arity := by
  let arity (detail : Detail) : Nat := (Entity.plain "" "" detail).arity
  have harity (e : Entity) : arity e.outline = arity e.detail := by
    unfold Entity.outline Entity.mapMembers
    cases e.detail <;> rfl
  exact h.of_outline harity

/-- A category extends the same interface. -/
theorem extended (h : e.SameOrigin e') :
    e'.category?.map Prod.snd = e.category?.map Prod.snd := by
  let extended (detail : Detail) : Option EntityId :=
    (Entity.plain "" "" detail).category?.map Prod.snd
  have hextended (e : Entity) : extended e.outline = extended e.detail := by
    unfold Entity.outline Entity.mapMembers
    cases e.detail <;> rfl
  exact h.of_outline hextended

end Entity.SameOrigin

/-! ### Graphs -/

/-- The entities of `g` are those of `g'` that have a source, and some without. -/
structure Graph.Retains (g g' : Graph) : Prop where
  kept : ∀ {id e}, g.entity? id = some e → ∃ e', g'.entity? id = some e' ∧ e.SameOrigin e'
  original : ∀ {id e' d}, g'.entity? id = some e' → e'.source = some d →
    ∃ e, g.entity? id = some e ∧ e.SameOrigin e'

namespace Graph.Retains

theorem refl (g : Graph) : g.Retains g where
  kept he := ⟨_, he, .refl _⟩
  original he _ := ⟨_, he, .refl _⟩

theorem trans {g₁ g₂ g₃ : Graph} (h : g₁.Retains g₂) (h' : g₂.Retains g₃) : g₁.Retains g₃ where
  kept he := by
    obtain ⟨e₂, he₂, hsame⟩ := h.kept he
    obtain ⟨e₃, he₃, hsame'⟩ := h'.kept he₂
    exact ⟨e₃, he₃, hsame.trans hsame'⟩
  original he hs := by
    obtain ⟨e₂, he₂, hsame⟩ := h'.original he hs
    obtain ⟨e₁, he₁, hsame'⟩ := h.original he₂ (hsame.source.symm.trans hs)
    exact ⟨e₁, he₁, hsame'.trans hsame⟩

/-- A change of one entity that does not touch its origin. -/
theorem modify (g : Graph) (id : EntityId) {f : Entity → Entity}
    (hf : ∀ e : Entity, e.SameOrigin (f e)) : g.Retains (g.modify id f) where
  kept {j e} he := by
    rw [Graph.entity?_modify]
    by_cases hj : j = id
    · rw [if_pos hj, ← hj, he]
      exact ⟨f e, rfl, hf e⟩
    · rw [if_neg hj]
      exact ⟨e, he, .refl e⟩
  original {j e' d} he' _ := by
    rw [Graph.entity?_modify] at he'
    by_cases hj : j = id
    · rw [if_pos hj] at he'
      obtain ⟨e, he, rfl⟩ := Option.map_eq_some_iff.mp he'
      exact ⟨e, hj ▸ he, hf e⟩
    · rw [if_neg hj] at he'
      exact ⟨e', he', .refl e'⟩

/-- What a container lists is no part of its origin. -/
theorem mapMembers (g : Graph) (id : EntityId) (f : Members → Members) :
    g.Retains (g.mapMembers id f) :=
  modify g id fun e => .mapMembers e f

/-- An entity without a source may be added; its slot is new. -/
theorem insert (g : Graph) {e : Entity} (hsource : e.source = none) : g.Retains (g.insert e).2 where
  kept {j e'} he' := by
    have hne : j ≠ (g.insert e).1 := by
      rintro rfl
      cases (g.entity?_insert_fst e).symm.trans he'
    exact ⟨e', by rw [Graph.entity?_insert, if_neg hne, he'], .refl e'⟩
  original {j e' d} he' hs := by
    rw [Graph.entity?_insert] at he'
    by_cases hj : j = (g.insert e).1
    · rw [if_pos hj] at he'
      cases he'
      cases hsource.symm.trans hs
    · rw [if_neg hj] at he'
      exact ⟨e', he', .refl e'⟩

end Graph.Retains

/-! ### Drafts -/

namespace Draft

/-- What a pass leaves alone. -/
structure Retains (d d' : Draft) : Prop where
  graph : d.graph.Retains d'.graph
  intake : d'.report.intake = d.report.intake

namespace Retains

theorem refl (d : Draft) : d.Retains d := ⟨.refl d.graph, rfl⟩

theorem trans {d₁ d₂ d₃ : Draft} (h : d₁.Retains d₂) (h' : d₂.Retains d₃) : d₁.Retains d₃ :=
  ⟨h.graph.trans h'.graph, h'.intake.trans h.intake⟩

end Retains

/-! ### Steps -/

/-- A container that loses members keeps all else. -/
theorem Drops.retains {d d' : Draft} {id : EntityId} (h : d.Drops id d') : d.Retains d' := by
  cases h with
  | other => exact .refl d
  | members => exact ⟨.mapMembers d.graph id _, rfl⟩

/-- A new name is no new origin. -/
theorem retains_rename (d : Draft) (id : EntityId) (name : String) :
    d.Retains (d.rename id name) :=
  ⟨.modify d.graph id fun _ => ⟨rfl, rfl, rfl, rfl, rfl⟩, rfl⟩

/-- A protocol may get another name. -/
theorem retains_separateProtocol (interfaces : List (String × String)) (d : Draft)
    (id : EntityId) : d.Retains (d.separateProtocol interfaces id) := by
  obtain h | ⟨e, -, h⟩ := d.separateProtocol_cases interfaces id <;> rw [h]
  · exact .refl d
  · exact retains_rename d id _

/-- The members of a category are listed by its interface as well, and nothing goes. -/
theorem retains_foldCategory (d : Draft) (id : EntityId) : d.Retains (d.foldCategory id) := by
  obtain h | ⟨_, extended, _, -, -, h⟩ := d.foldCategory_cases id <;> rw [h]
  · exact .refl d
  · exact ⟨.mapMembers d.graph extended _, rfl⟩

/-- The property that is added has no source. -/
theorem retains_wrapAccessors (d : Draft) (ancestor : EntityId) (module : String)
    (template : Entity) (getter setter : Option EntityId) :
    d.Retains (d.wrapAccessors ancestor module template getter setter) := by
  have hmarked : d.graph.Retains (d.graph.markAccessors (getter.toList ++ setter.toList)) :=
    Graph.markAccessors_induction (.refl d.graph) fun g h i _ => h.trans (.modify g i .asAccessor)
  exact ⟨(hmarked.trans (.insert _ rfl)).trans (.mapMembers _ ancestor _), rfl⟩

theorem retains_addProperty (template : Entity) (selectors : String × String) (d : Draft)
    (ancestor : EntityId) : d.Retains (d.addProperty template selectors ancestor) := by
  obtain ⟨h, -⟩ | ⟨_, _, _, _, -, h⟩ := d.addProperty_cases template selectors ancestor <;>
    rw [h]
  · exact .refl d
  · exact retains_wrapAccessors d ancestor _ template _ _

theorem retains_alignAncestors (d : Draft) (id : EntityId) : d.Retains (d.alignAncestors id) :=
  alignAncestors_induction (.refl d) fun d' h template selectors a _ =>
    h.trans (retains_addProperty template selectors d' a)

/-- What is reported changes no graph. -/
theorem retains_reportOverloads (d : Draft) (id : EntityId) :
    d.Retains (d.reportOverloads id) := by
  unfold reportOverloads
  cases d.graph.entity? id with
  | none => exact .refl d
  | some e => exact ⟨.refl d.graph, rfl⟩

/-- An interface with its turn adds properties without a source, and takes methods off lists. -/
theorem retains_alignInterface (d : Draft) (id : EntityId) : d.Retains (d.alignInterface id) := by
  unfold alignInterface
  by_cases hkind : d.graph.kind? id = some .interface
  · rw [if_pos hkind]
    exact ((retains_alignAncestors d id).trans (drops_dropShadowed _ id).retains).trans
      (retains_reportOverloads _ id)
  · rw [if_neg hkind]
    exact .refl d

/-! ### Passes -/

/-- First the reserved methods go, and then protocols are renamed. -/
theorem retains_applyReserved (d : Draft) : d.Retains d.applyReserved := by
  have hdropped : d.Retains d.dropReserved :=
    rel_forListed Retains.refl Retains.trans (fun d id => (d.drops_dropReservedFrom id).retains) d
  exact hdropped.trans (rel_forListed Retains.refl Retains.trans
    (retains_separateProtocol d.dropReserved.interfaceNames) d.dropReserved)

theorem retains_foldCategories (d : Draft) : d.Retains d.foldCategories := by
  obtain ⟨hgraph, hintake⟩ := rel_forListed Retains.refl Retains.trans retains_foldCategory d
  exact ⟨hgraph, hintake⟩

theorem retains_dropRedundant (d : Draft) : d.Retains d.dropRedundant :=
  rel_forListed Retains.refl Retains.trans (fun d id => (d.drops_dropRedundantFrom id).retains) d

theorem retains_alignAccessors (d : Draft) : d.Retains d.alignAccessors :=
  rel_forListed Retains.refl Retains.trans retains_alignInterface d

theorem retains_resolveClashes (d : Draft) : d.Retains d.resolveClashes :=
  resolveClashes_induction (.refl d) fun d' h id _ name => h.trans (retains_rename d' id name)

/-- All five passes leave alone what comes from declarations, and how the intake has gone. -/
theorem retains_finish (d : Draft) : d.Retains d.finish :=
  ((((retains_applyReserved d).trans (retains_foldCategories _)).trans
    (retains_dropRedundant _)).trans (retains_alignAccessors _)).trans (retains_resolveClashes _)

end Draft

end InteropGraph
