import InteropGraph.Proofs.Assembly.Assures
import InteropGraph.Proofs.Assembly.Sound
import InteropGraph.Proofs.Lists

/-!
# What the resolution of types assures

Given that requests keep the assembly sound and fail only for what is not constructible, a type that
is resolved stands for the type of the source unit, and a type that cannot be resolved is one that
does not resolve with the constructible declarations. A resolution that comes back to a type it has
begun with is no exception, as such a type is a part of itself.
-/

namespace InteropGraph.Assembly

variable {unit : SourceUnit} {settings : Settings} {active : List DeclRef} {entity : Request}
  {a : Assembly}

/-- Requests keep the assembly sound and fail only for what is not constructible. -/
def EntityAssured (unit : SourceUnit) (settings : Settings) (active : List DeclRef)
    (entity : Request) : Prop :=
  ∀ d owner a, Sound unit settings active a → Assures (Sound unit settings active) (entity d owner)
    a (fun id b => b.answer? d = some (.ok id)) (¬Constructible unit settings d)

/-- A resolution of `t` keeps the assembly sound and fails only if `t` does not resolve. -/
def TypeAssured (unit : SourceUnit) (settings : Settings) (active : List DeclRef) (t : TypeRef)
    (step : Assemble TypeId) : Prop :=
  ∀ a, Sound unit settings active a → Assures (Sound unit settings active) step a
    (fun id b => Denotes unit b t id) (¬Resolves unit (Constructible unit settings) t)

/-- Wherever `type` is put from now on, it stands for `t`. -/
def StandsFor (unit : SourceUnit) (t : TypeRef) (type : BridgeType) (a : Assembly) : Prop :=
  ∀ b id, Grows a b → b.graph.type? id = some type → Denotes unit b t id

/-- A type that has been converted may be put into the arena and remembered. -/
theorem addType_assures (ha : Sound unit settings active a) {t : TypeRef} {type : BridgeType}
    (h : StandsFor unit t type a) {E : Prop} :
    Assures (Sound unit settings active) (addType t type) a
      (fun id b => Denotes unit b t id) E := by
  have hplace : Denotes unit ((addType t type).run a).2 t (a.graph.addType type).1 := by
    refine h _ _ (.addType a t type) ?_
    show (a.graph.addType type).2.type? _ = _
    rw [Graph.type?_addType, if_pos rfl]
  exact .of_run_ok (run_addType t type a) (.addType a t type) (ha.addType hplace) hplace

/-! ### Conversion

`node` is what the source unit has at `t`, and `type` resolves its parts. -/

section Convert

variable {t : TypeRef} {node : TypeNode} {type : TypeRef → Assemble TypeId}

section Parts

variable (hnode : unit.type? t = some node)
  (htype : ∀ u ∈ node.parts, TypeAssured unit settings active u (type u))
include hnode htype

/-- One part is resolved, and wrapped. -/
theorem wrapPart_assures (ha : Sound unit settings active a) {u : TypeRef} (hu : u ∈ node.parts)
    {wrap : TypeId → BridgeType} (hwrap : ∀ c id j, Denotes unit c u j →
      c.graph.type? id = some (wrap j) → Denotes unit c t id) :
    Assures (Sound unit settings active) (do return wrap (← type u)) a (StandsFor unit t)
      (¬Resolves unit (Constructible unit settings) t) := by
  have hpart : ¬Resolves unit (Constructible unit settings) u →
      ¬Resolves unit (Constructible unit settings) t :=
    fun hres ht => hres ((ht.inv hnode).2.2 u hu)
  refine ((htype u hu a ha).orElse hpart).bind fun j b _ hb hj => .pure hb fun c id hbc h => ?_
  exact hwrap c id j (hj.mono hbc) h

/-- All parts are resolved, one after the other. -/
theorem mapParts_assures (ha : Sound unit settings active a) :
    Assures (Sound unit settings active) (node.parts.mapM type) a
      (fun ids b => List.Forall₂ (Denotes unit b) node.parts ids)
      (¬Resolves unit (Constructible unit settings) t) := by
  refine Assures.orElse (E := ¬∀ u ∈ node.parts, Resolves unit (Constructible unit settings) u)
    (.mapM (P := fun u id c => Denotes unit c u id) (fun _ _ _ _ hbc h => h.mono hbc)
      (fun u hu b _ hb => htype u hu b hb) ha) ?_
  exact fun h ht => h (ht.inv hnode).2.2

/-- All parts are resolved, and wrapped together. -/
theorem wrapParts_assures (ha : Sound unit settings active a) {wrap : List TypeId → BridgeType}
    (hwrap : ∀ c id ids, List.Forall₂ (Denotes unit c) node.parts ids →
      c.graph.type? id = some (wrap ids) → Denotes unit c t id) :
    Assures (Sound unit settings active) (do return wrap (← node.parts.mapM type)) a
      (StandsFor unit t) (¬Resolves unit (Constructible unit settings) t) := by
  refine (mapParts_assures hnode htype ha).bind fun ids b _ hb hids =>
    .pure hb fun c id hbc h => ?_
  exact hwrap c id ids (hids.imp fun _ _ h => h.mono hbc) h

end Parts

/-- A typedef stands for what its name does, or for what is behind it. -/
theorem alias_assures {name : String} {underlying : TypeRef}
    (hnode : unit.type? t = some (.alias name underlying)) (htype : ∀ u ∈
      (TypeNode.alias name underlying).parts, TypeAssured unit settings active u (type u))
    (ha : Sound unit settings active a) :
    Assures (Sound unit settings active) (convert unit entity type (.alias name underlying)) a
      (StandsFor unit t) (¬Resolves unit (Constructible unit settings) t) := by
  rw [convert]
  cases hname : namedType? name with
  | some s => exact .pure ha fun c id _ h => .standalone hnode hname h
  | none =>
    have hmem : underlying ∈ (TypeNode.alias name underlying).parts := by
      rw [parts_alias_of_none hname]
      exact List.mem_cons_self
    refine ((htype underlying hmem a ha).orElse fun h ht => ?_).bind fun j b _ hb hj => ?_
    · exact h ((ht.inv hnode).2.2 underlying hmem)
    -- the place of the underlying type is not vacant, so its type can be copied
    refine (Assures.currentGraph hb).bind fun g c hbc hc hg => ?_
    obtain ⟨type', htype'⟩ := (hj.mono hbc).exists_type
    rw [hg, htype']
    refine .pure hc fun e id hce h => ?_
    exact .synonym hnode hname (hj.mono (hbc.trans hce)) (hce.type htype') h

variable (hentity : EntityAssured unit settings active entity)
include hentity

/-- What a type refers to has to be there. -/
theorem dependency_assures (ha : Sound unit settings active a) (d : DeclRef) (owner : String) :
    Assures (Sound unit settings active) (dependency unit entity d owner) a
      (fun id b => b.answer? d = some (.ok id)) (¬Constructible unit settings d) :=
  (hentity d owner a ha).dependingOn _

/-- The entity is requested without which `t` does not resolve, and wrapped. -/
theorem wrapEntity_assures (hnode : unit.type? t = some node) (ha : Sound unit settings active a)
    {d : DeclRef} (hd : d ∈ node.dependencies unit) {wrap : EntityId → BridgeType}
    (hwrap : ∀ c id i, c.answer? d = some (.ok i) → c.graph.type? id = some (wrap i) →
      Denotes unit c t id) :
    Assures (Sound unit settings active) (do return wrap (← dependency unit entity d "")) a
      (StandsFor unit t) (¬Resolves unit (Constructible unit settings) t) := by
  refine ((dependency_assures hentity ha d "").orElse fun h ht => ?_).bind
    fun i b _ hb hi => .pure hb fun c id hbc h => ?_
  · exact h ((ht.inv hnode).2.1 d hd)
  · exact hwrap c id i (hbc.ready hi) h

/-- Protocols that cannot be made are left out. -/
theorem qualifiers_assures (ha : Sound unit settings active a) (protocols : List DeclRef)
    {E : Prop} :
    Assures (Sound unit settings active) (qualifiers entity protocols) a
      (fun ids b => PlacesOf b protocols ids) E := by
  refine Assures.orElse (E := False) ?_ False.elim
  refine .filterMapM (P := fun p id b => b.answer? p = some (.ok id))
    (fun _ _ _ _ hbc h => hbc.ready h) (fun p _ b _ hb => ?_) ha
  exact (hentity p "" b hb).attempt

/-- A pointer to an object needs its interface and its arguments; whether these are kept is decided
by what they resolve to. -/
theorem objectPointer_assures {interface : DeclRef} {protocols : List DeclRef}
    {arguments : List TypeRef}
    (hnode : unit.type? t = some (.objectPointer interface protocols arguments))
    (htype : ∀ u ∈ arguments, TypeAssured unit settings active u (type u))
    (ha : Sound unit settings active a) :
    Assures (Sound unit settings active)
      (convert unit entity type (.objectPointer interface protocols arguments)) a
      (StandsFor unit t) (¬Resolves unit (Constructible unit settings) t) := by
  refine ((dependency_assures hentity ha interface "").orElse fun h ht => ?_).bind
    fun i b _ hb hi => ?_
  · exact h ((ht.inv hnode).2.1 interface (List.mem_singleton.mpr rfl))
  refine (mapParts_assures hnode htype hb).bind fun parts c hbc hc hparts => ?_
  refine (Assures.currentGraph hc).bind fun g c' hcc hc' hg => ?_
  refine (qualifiers_assures hentity hc' protocols).bind
    fun ids d hcd hd hids => .pure hd fun e id hde h => ?_
  have hce : Grows c' e := hcd.trans hde
  obtain ⟨hlen, hzip⟩ := List.forall₂_iff_zip.mp hparts
  -- the arguments were found closed, or not, when the protocols had not been requested
  have hsame : ∀ j ∈ parts, e.graph.type? j = g.type? j := by
    intro j hj
    obtain ⟨u, hu⟩ := List.exists_mem_zip_right hlen hj
    obtain ⟨type, htype⟩ := ((hzip hu).mono hcc).exists_type
    rw [hg, htype, hce.type htype]
  refine .objectPointer hnode (hce.ready (hcc.ready (hbc.ready hi))) (hids.mono hde) hlen
    (fun u j huj => (hzip huj).mono (hcc.trans hce)) ?_
  rwa [closedArguments_congr hsame]

/-- A conversion gives what stands for `t`, if the parts of `t` can be resolved. -/
theorem convert_assures (hnode : unit.type? t = some node)
    (htype : ∀ u ∈ node.parts, TypeAssured unit settings active u (type u))
    (ha : Sound unit settings active a) :
    Assures (Sound unit settings active) (convert unit entity type node) a (StandsFor unit t)
      (¬Resolves unit (Constructible unit settings) t) := by
  cases node with
  | primitive p =>
    refine (Assures.ofExcept (Q := fun s _ => ofPrimitive p = .ok s) ha (fun _ h => h) ?_).bind
      fun s b _ hb hs => .pure hb fun c id _ h => .primitive hnode hs h
    exact fun h ht => h (ofPrimitive_isOk_iff.mpr (ht.inv hnode).1)
  | object protocols =>
    refine (qualifiers_assures hentity ha protocols).bind
      fun ids b _ hb hids => .pure hb fun c id hbc h => ?_
    exact .object hnode (hids.mono hbc) h
  | objectPointer interface protocols arguments =>
    exact objectPointer_assures hentity hnode htype ha
  | pointer pointee =>
    exact wrapPart_assures hnode htype ha (List.mem_singleton.mpr rfl)
      fun c id j hj h => .pointer hnode hj h
  | block returns params =>
    refine wrapParts_assures hnode htype ha fun c id ids hids h => ?_
    obtain ⟨hlen, hzip⟩ := List.forall₂_iff_zip.mp hids
    exact .block hnode hlen (fun _ _ => hzip) h
  | functionPointer returns params =>
    refine wrapParts_assures hnode htype ha fun c id ids hids h => ?_
    obtain ⟨hlen, hzip⟩ := List.forall₂_iff_zip.mp hids
    exact .functionPointer hnode hlen (fun _ _ => hzip) h
  | constantArray element size =>
    exact wrapPart_assures hnode htype ha (List.mem_singleton.mpr rfl)
      fun c id j hj h => .constantArray hnode hj h
  | incompleteArray element =>
    exact wrapPart_assures hnode htype ha (List.mem_singleton.mpr rfl)
      fun c id j hj h => .incompleteArray hnode hj h
  | record d =>
    rw [convert]
    cases hunion : unionName? unit d with
    | some name => exact .pure ha fun c id _ h => .union hnode hunion h
    | none =>
      have hmem : d ∈ (TypeNode.record d).dependencies unit := by
        simp [TypeNode.dependencies, hunion]
      exact wrapEntity_assures hentity hnode ha hmem
        fun c id i hi h => .record hnode hunion hi h
  | enumeration d =>
    exact wrapEntity_assures hentity hnode ha (List.mem_singleton.mpr rfl)
      fun c id i hi h => .enumeration hnode hi h
  | typeParameter name => exact .pure ha fun c id _ h => .typeParameter hnode h
  | «alias» name underlying => exact alias_assures hnode htype ha

end Convert

/-! ### Resolution -/

/-- The types that are being resolved around `t` have `t` as a part. -/
theorem resolve_assures (hentity : EntityAssured unit settings active entity)
    (resolving : List TypeRef) (t : TypeRef)
    (hparts : ∀ r ∈ resolving, Relation.TransGen (IsPart unit) t r) :
    TypeAssured unit settings active t (resolve unit entity resolving t) := by
  induction resolving, t using resolve.induct unit with
  | case1 resolving t ih =>
    intro a ha
    obtain ⟨id, ht, hrun⟩ | ⟨-, hu, hrun⟩ | ⟨node, -, hu, hr, hrun⟩ | ⟨node, -, hu, hr, hrun⟩ :=
      resolve_cases unit entity resolving t a
    · exact .of_run_ok hrun (.refl a) ha (ha.type ht)
    · refine .of_run_error hrun (.refl a) ha ?_
      rintro ⟨found, -⟩
      cases hu.symm.trans found
    · -- a resolution within itself has gone down to a part that is the type again
      exact .of_run_error hrun (.refl a) ha (not_resolves_of_cycle (hparts t hr))
    · refine .of_run hrun (.refl a) ?_
      refine (convert_assures hentity hu (fun u hmem => ?_) ha).bind
        fun type b _ hb htype => addType_assures hb htype
      have hpart : IsPart unit u t := ⟨node, hu, hmem⟩
      exact ih node hu hr u (hpart.around hparts)

end InteropGraph.Assembly
