import InteropGraph.Proofs.Assembly.Describes

/-!
# Sound assemblies

`Sound unit settings active a` is what holds of the state at any time, while the entities of
`active` are under construction. Those have only been promised; every other entity that is ready
describes its declaration, every type that is remembered stands for one of the source unit, and a
declaration that is remembered as a failure is not constructible. The clauses are relative to what
is ready, promises included: that is why a failed construction has to take back whatever has been
made since it began (`Sound.abandon`), and why nothing is left to be shown when `active` is empty
(`Sound.consistent`).
-/

namespace InteropGraph.Assembly

/-- The entity of `d` is complete. -/
structure Complete (unit : SourceUnit) (settings : Settings) (a : Assembly) (d : DeclRef)
    (decl : Declaration) (e : Entity) : Prop where
  declared : unit.declaration? d = some decl
  source : e.source = some d
  available : ∃ window, Window.ofDeclaration settings decl = .ok window
  wellFormed : decl.shape.IsWellFormed unit decl.attributes
  describes : Describes unit a decl.shape e.detail

/-- What the memory says can be relied on. A declaration under way has its slot, an entity that is
remembered is complete unless it is under way, a failure is remembered only of what is not
constructible, and a type that is remembered denotes what it has been entered for. -/
structure Sound (unit : SourceUnit) (settings : Settings) (active : List DeclRef) (a : Assembly) :
    Prop where
  underway : ∀ d ∈ active, Ready a d
  made : ∀ {d id}, a.answer? d = some (.ok id) → d ∈ active ∨
    ∃ decl e, a.graph.entity? id = some e ∧ Complete unit settings a d decl e
  failed : ∀ {d f}, a.answer? d = some (.error f) → ¬Constructible unit settings d
  type : ∀ {t id}, a.typeId? t = some id → Denotes unit a t id

variable {unit : SourceUnit} {settings : Settings} {active : List DeclRef} {a b : Assembly}
  {d : DeclRef}

/-- What is complete stays so. -/
theorem Complete.mono (hab : Grows a b) {decl : Declaration} {e : Entity}
    (h : Complete unit settings a d decl e) : Complete unit settings b d decl e :=
  { h with describes := h.describes.mono hab }

/-- A complete entity has a declaration that is admissible together with what is ready. -/
theorem Complete.admissible {decl : Declaration} {e : Entity}
    (h : Complete unit settings a d decl e) : Admissible unit settings (Ready a) decl where
  available := h.available
  wellFormed := h.wellFormed
  dependencies := h.describes.ready_dependencies
  types := h.describes.resolves_types

namespace Sound

theorem empty (unit : SourceUnit) (settings : Settings) : Sound unit settings [] .empty where
  underway := nofun
  made h := nomatch h
  failed h := nomatch h
  type h := nomatch h

/-- What has been made stays complete. -/
theorem made_mono (h : Sound unit settings active a) (hab : Grows a b) {id : EntityId}
    (hd : a.answer? d = some (.ok id)) : d ∈ active ∨
      ∃ decl e, b.graph.entity? id = some e ∧ Complete unit settings b d decl e := by
  rcases h.made hd with hmem | ⟨decl, e, he, hc⟩
  · exact .inl hmem
  · exact .inr ⟨decl, e, hab.entity he, hc.mono hab⟩

theorem countHit (h : Sound unit settings active a) : Sound unit settings active a.countHit where
  underway := h.underway
  made hx := h.made_mono (.of_extends (.countHit unit a)) hx
  failed := h.failed
  type ht := (h.type ht).mono (.of_extends (.countHit unit a))

/-- A type may be remembered once it stands for one of the source unit. -/
theorem addType (h : Sound unit settings active a) {t : TypeRef} {type : BridgeType}
    (ht : Denotes unit ((Assembly.addType t type).run a).2 t (a.graph.addType type).1) :
    Sound unit settings active ((Assembly.addType t type).run a).2 where
  underway := h.underway
  made hx := h.made_mono (.addType a t type) hx
  failed := h.failed
  type {u id} hu := by
    rw [typeId?_addType] at hu
    by_cases hut : u = t
    · rw [if_pos hut] at hu
      cases hu
      exact hut ▸ ht
    · rw [if_neg hut] at hu
      exact (h.type hu).mono (.addType a t type)

/-- A declaration begins without having failed. -/
theorem begin (h : Sound unit settings active a) (hd : a.answer? d = none) :
    Sound unit settings (d :: active) (a.begin d).2 where
  underway x hx := by
    rcases List.mem_cons.mp hx with rfl | hx
    · exact ⟨_, by rw [answer?_begin, if_pos rfl]⟩
    · obtain ⟨id, hid⟩ := h.underway x hx
      exact ⟨id, (Grows.begin hd).ready hid⟩
  made {x id} hx := by
    rw [answer?_begin] at hx
    -- `d` is under construction now; the others were sound before
    by_cases hxd : x = d
    · exact .inl (List.mem_cons.mpr (.inl hxd))
    · rw [if_neg hxd] at hx
      exact (h.made_mono (.begin hd) hx).imp_left (List.mem_cons_of_mem d)
  failed {x f} hx := by
    rw [answer?_begin] at hx
    by_cases hxd : x = d
    · rw [if_pos hxd] at hx
      cases hx
    · rw [if_neg hxd] at hx
      exact h.failed hx
  type ht := (h.type ht).mono (.begin hd)

/-- A construction that succeeds keeps what was promised when it began. -/
theorem complete (hext : Extends unit (a.begin d).2 b) (h : Sound unit settings (d :: active) b)
    {decl : Declaration} {e : Entity} (he : Complete unit settings b d decl e) :
    Sound unit settings active (b.complete (a.begin d).1 e) where
  underway x hx := h.underway x (List.mem_cons_of_mem d hx)
  made {x id} hx := by
    -- the promise of `d` is redeemed by `e`; what else is under construction stays so
    have hgrows := Grows.complete hext e
    by_cases hxd : x = d
    · have hslot : b.answer? d = some (.ok (a.begin d).1) :=
        hext.answer (by rw [answer?_begin, if_pos rfl])
      have hid : id = (a.begin d).1 := by
        subst hxd
        exact Except.ok.inj (Option.some.inj (Eq.trans (Eq.symm hx) hslot))
      refine .inr ⟨decl, e, ?_, hxd ▸ he.mono hgrows⟩
      rw [entity?_complete hext, if_pos hid]
    · exact (h.made_mono hgrows hx).imp_left fun hmem => (List.mem_cons.mp hmem).resolve_left hxd
  failed hx := h.failed hx
  type ht := (h.type ht).mono (.complete hext e)

/-- A construction that fails leaves the failures and whatever there was before. -/
theorem abandon (hd : a.answer? d = none) (hdecl : (unit.declaration? d).isSome)
    (hext : Extends unit (a.begin d).2 b) (h : Sound unit settings active a)
    (hb : Sound unit settings (d :: active) b) (hfail : ¬Constructible unit settings d)
    (f : Failure) : Sound unit settings active (b.abandon a.mark d f) where
  underway x hx := by
    obtain ⟨id, hid⟩ := h.underway x hx
    exact ⟨id, answer?_abandon_of_answer? hext hd f hid⟩
  made {x id} hx := by
    have hold : a.answer? x = some (.ok id) := ((abandon_restores hext hd f).ready x id).mp hx
    exact h.made_mono (.of_extends (abandon_extends hext hd hdecl f)) hold
  failed {x g} hx := by
    -- failures from inside stay, and they are failures of what is not constructible
    by_cases hxd : x = d
    · rwa [hxd]
    · exact hb.failed (answer?_of_answer?_abandon hext hxd hx).1
  type {t id} ht := by
    rw [(abandon_restores hext hd f).typeId] at ht
    exact (h.type ht).mono (.of_extends (abandon_extends hext hd hdecl f))

/-- When nothing is under construction, what is ready is complete. -/
theorem complete_of_answer (h : Sound unit settings [] a) {id : EntityId}
    (hd : a.answer? d = some (.ok id)) :
    ∃ decl e, a.graph.entity? id = some e ∧ Complete unit settings a d decl e :=
  (h.made hd).resolve_left List.not_mem_nil

/-- With nothing under way, what is remembered and has an entity is complete. -/
theorem complete_of_entity (h : Sound unit settings [] a) {id : EntityId} {e : Entity}
    (hd : a.answer? d = some (.ok id)) (he : a.graph.entity? id = some e) :
    ∃ decl, Complete unit settings a d decl e := by
  obtain ⟨decl, e', he', hcomplete⟩ := h.complete_of_answer hd
  obtain rfl : e = e' := Option.some.inj (he.symm.trans he')
  exact ⟨decl, hcomplete⟩

/-- When nothing is under construction, what is ready is consistent: no promise is left open. -/
theorem consistent (h : Sound unit settings [] a) : Consistent unit settings (Ready a) := by
  -- a complete entity depends only on what is ready, as it describes an admissible declaration
  rintro d ⟨id, hid⟩
  obtain ⟨decl, e, -, hc⟩ := h.complete_of_answer hid
  exact ⟨decl, hc.declared, hc.admissible⟩

end Sound

end InteropGraph.Assembly
