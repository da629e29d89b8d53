import InteropGraph.Proofs.Assembly.Declarations
import InteropGraph.Proofs.Assembly.Mentions

/-!
# What a construction demands

A construction makes its demands one after the other: checks that it has to pass, entities that it
cannot do without, and entities that it leaves out if they cannot be made. `demands` lists them in
the order of the construction, those of the types that a declaration names included. A check that
fails is a demand that nothing can meet, and a check that passes is none. So a construction fails at
the first demand that is not met, and a declaration that is admissible has all of its demands met
(`Admissible.met`).
-/

namespace InteropGraph.Assembly

/-- What a construction comes to. -/
inductive Demand where
  /-- A check that fails. -/
  | refused (f : Failure)
  /-- An entity that the construction cannot do without. -/
  | entity (d : DeclRef)
  /-- An entity that is left out if it cannot be made. -/
  | optional (d : DeclRef)
deriving DecidableEq, Repr

namespace Demand

/-- Whether a demand can be met if the declarations in `G` have entities. -/
def Met (G : DeclRef → Prop) : Demand → Prop
  | refused _ => False
  | entity d => G d
  | optional _ => True

/-- The declaration that is requested. -/
def target? : Demand → Option DeclRef
  | refused _ => none
  | entity d | optional d => some d

/-- The demand that comes from a check. -/
def ofCheck {α : Type} : Except Failure α → List Demand
  | .ok _ => []
  | .error f => [refused f]

end Demand

/-- The checks of a type by itself. -/
def typeChecks : TypeNode → List Demand
  | .primitive p => Demand.ofCheck (ofPrimitive p)
  | _ => []

/-- The demands of a type, given the types that are being resolved around it. -/
def typeDemands (unit : SourceUnit) (around : List TypeRef) (t : TypeRef) : List Demand :=
  match _found : unit.type? t with
  | none => [.refused (.invalid s!"dangling type id {t.index.toNat}")]
  | some node =>
    if _fresh : t ∈ around then [.refused (.invalid s!"cyclic type id {t.index.toNat}")]
    else typeChecks node ++ ((node.dependencies unit).map .entity ++
      ((node.parts.flatMap fun u => typeDemands unit (t :: around) u) ++
        node.protocols.map .optional))
termination_by unseen unit.typeRefs around
decreasing_by exact unseen_cons_lt (SourceUnit.mem_typeRefs _found) _fresh

/-- The checks of a declaration by itself, apart from its availability. -/
def shapeChecks (unit : SourceUnit) (decl : Declaration) : List Demand :=
  match decl.shape with
  | .function callable | .method callable _ _ _ =>
    Demand.ofCheck (variadicFlags decl callable.variadic)
  | .record true _ => [.refused (.skipped s!"union '{decl.name}' is not supported")]
  | .variable _ initializer => Demand.ofCheck (initialValue decl.name initializer)
  | .enumeration _ constants => Demand.ofCheck (constants.mapM (enumConstant unit decl.name))
  | _ => []

/-- The demands of a declaration that is available. -/
def shapeDemands (unit : SourceUnit) (decl : Declaration) : List Demand :=
  shapeChecks unit decl ++ (decl.shape.dependencies.map .entity ++
    (decl.shape.typesNamed.flatMap (typeDemands unit []) ++
      (decl.shape.members?.elim [] MemberRefs.all).map .optional))

/-- The demands of the construction of `d`. -/
def demands (unit : SourceUnit) (settings : Settings) (d : DeclRef) : List Demand :=
  match unit.declaration? d with
  | none => [.refused (.invalid s!"dangling declaration id {d.index.toNat}")]
  | some decl => Demand.ofCheck (Window.ofDeclaration settings decl) ++ shapeDemands unit decl

variable {unit : SourceUnit} {settings : Settings} {G G' : DeclRef → Prop} {d : DeclRef}

/-! ### One equation for each way that a type can go -/

section Types

variable {around : List TypeRef} {t : TypeRef} {node : TypeNode}

/-- A type that is missing is refused as such. -/
theorem typeDemands_of_dangling (hu : unit.type? t = none) :
    typeDemands unit around t =
      [.refused (.invalid s!"dangling type id {t.index.toNat}")] := by
  rw [typeDemands]
  split
  next => rfl
  next node hnode => exact absurd hnode (by simp [hu])

/-- A type that is around itself is refused as such. -/
theorem typeDemands_of_cycle (hu : unit.type? t = some node) (ht : t ∈ around) :
    typeDemands unit around t =
      [.refused (.invalid s!"cyclic type id {t.index.toNat}")] := by
  rw [typeDemands]
  split
  next hnode => exact absurd hnode (by simp [hu])
  next => rw [dif_pos ht]

/-- A type demands what its own node does, then what its parts do, and last the protocols that it
may leave out. -/
theorem typeDemands_of_fresh (hu : unit.type? t = some node) (ht : t ∉ around) :
    typeDemands unit around t = typeChecks node ++ ((node.dependencies unit).map .entity ++
      (node.parts.flatMap (typeDemands unit (t :: around)) ++ node.protocols.map .optional)) := by
  rw [typeDemands]
  split
  next hnode => exact absurd hnode (by simp [hu])
  next node' hnode =>
    obtain rfl : node = node' := Option.some.inj (hu.symm.trans hnode)
    rw [dif_neg ht]

end Types

/-! ### Demands that are met -/

namespace Demand

/-- With more declarations that are good, more demands are met. -/
theorem Met.mono (hG : ∀ x, G x → G' x) {z : Demand} (h : z.Met G) : z.Met G' := by
  cases z with
  | refused f => exact h
  | entity x => exact hG x h
  | optional x => trivial

/-- A check that passes demands nothing. -/
theorem ofCheck_of_isOk {α : Type} {r : Except Failure α} (h : ∃ v, r = .ok v) :
    ofCheck r = [] := by
  obtain ⟨v, rfl⟩ := h
  rfl

theorem met_entities {refs : List DeclRef} (h : ∀ x ∈ refs, G x) :
    ∀ z ∈ refs.map entity, z.Met G := by
  intro z hz
  obtain ⟨x, hx, rfl⟩ := List.mem_map.mp hz
  exact h x hx

/-- What may be left out is always met. -/
theorem met_optional (G : DeclRef → Prop) (refs : List DeclRef) :
    ∀ z ∈ refs.map optional, z.Met G := by
  intro z hz
  obtain ⟨x, -, rfl⟩ := List.mem_map.mp hz
  trivial

end Demand

/-- A type that is supported passes its check. -/
theorem typeChecks_of_isSupported {node : TypeNode} (h : node.isSupported = true) :
    typeChecks node = [] := by
  cases node with
  | primitive p => exact Demand.ofCheck_of_isOk (ofPrimitive_isOk_iff.mpr h)
  | _ => rfl

/-- A declaration that is well formed passes its checks. -/
theorem shapeChecks_of_isWellFormed {decl : Declaration}
    (h : decl.shape.IsWellFormed unit decl.attributes) : shapeChecks unit decl = [] := by
  unfold shapeChecks
  cases hshape : decl.shape with
  | function callable =>
    rw [hshape] at h
    exact Demand.ofCheck_of_isOk (variadicFlags_isOk_iff.mpr h)
  | record isUnion fields =>
    rw [hshape] at h
    obtain rfl : isUnion = false := h
    rfl
  | «variable» type initializer =>
    rw [hshape] at h
    exact Demand.ofCheck_of_isOk (initialValue_isOk_iff.mpr h)
  | enumeration integerType constants =>
    rw [hshape] at h
    exact Demand.ofCheck_of_isOk (constants_isOk_iff.mpr h)
  | method callable isStatic isAccessor isOptional =>
    rw [hshape] at h
    exact Demand.ofCheck_of_isOk (variadicFlags_isOk_iff.mpr h)
  | _ => rfl

/-- The types around a type that resolves are others, so that no cycle is met. -/
theorem Resolves.met {t : TypeRef} (h : Resolves unit G t) {around : List TypeRef}
    (haround : ∀ r ∈ around, Relation.TransGen (IsPart unit) t r) :
    ∀ z ∈ typeDemands unit around t, z.Met G := by
  induction h generalizing around with
  | @intro t node found supported dependencies parts ih =>
    have hresolves : Resolves unit G t := .intro found supported dependencies parts
    have hfresh : t ∉ around := fun hmem => not_resolves_of_cycle (haround t hmem) hresolves
    intro z hz
    rw [typeDemands_of_fresh found hfresh, typeChecks_of_isSupported supported,
      List.nil_append] at hz
    rcases List.mem_append.mp hz with hz | hz
    · exact Demand.met_entities dependencies z hz
    rcases List.mem_append.mp hz with hz | hz
    · obtain ⟨u, hu, hz⟩ := List.mem_flatMap.mp hz
      have hpart : IsPart unit u t := ⟨node, found, hu⟩
      exact ih u hu (hpart.around haround) z hz
    · exact Demand.met_optional G _ z hz

/-- What an admissible declaration demands is met. -/
theorem Admissible.met_shape {decl : Declaration} (h : Admissible unit settings G decl) :
    ∀ z ∈ shapeDemands unit decl, z.Met G := by
  intro z hz
  rw [shapeDemands, shapeChecks_of_isWellFormed h.wellFormed, List.nil_append] at hz
  rcases List.mem_append.mp hz with hz | hz
  · exact Demand.met_entities h.dependencies z hz
  rcases List.mem_append.mp hz with hz | hz
  · obtain ⟨t, ht, hz⟩ := List.mem_flatMap.mp hz
    exact (h.types t ht).met (by simp) z hz
  · exact Demand.met_optional G _ z hz

/-- A declaration that is missing is refused as such. -/
theorem demands_of_dangling (h : unit.declaration? d = none) :
    demands unit settings d =
      [.refused (.invalid s!"dangling declaration id {d.index.toNat}")] := by
  rw [demands, h]

/-- A declaration demands to be available before all else. -/
theorem demands_of_declared {decl : Declaration} (h : unit.declaration? d = some decl) :
    demands unit settings d =
      Demand.ofCheck (Window.ofDeclaration settings decl) ++ shapeDemands unit decl := by
  rw [demands, h]

/-- What requests something is declared. -/
theorem declared_of_mem_demands {z : Demand} {x : DeclRef} (hz : z ∈ demands unit settings d)
    (hx : z.target? = some x) : (unit.declaration? d).isSome := by
  cases hd : unit.declaration? d with
  | some decl => rfl
  | none =>
    rw [demands_of_dangling hd, List.mem_singleton] at hz
    subst hz
    cases hx

/-- A declaration that is admissible has all of its demands met. -/
theorem Admissible.met {decl : Declaration} (h : Admissible unit settings G decl)
    (hdecl : unit.declaration? d = some decl) : ∀ z ∈ demands unit settings d, z.Met G := by
  intro z hz
  rw [demands_of_declared hdecl, Demand.ofCheck_of_isOk h.available, List.nil_append] at hz
  exact h.met_shape z hz

end InteropGraph.Assembly
