import InteropGraph.Proofs.Assembly.Denotes
import InteropGraph.Proofs.Assembly.Mentions

/-!
# Constructions in lockstep

A construction knows its surroundings only through the requests that it makes. So if two ways to
request are related, and the relation is kept when steps are composed (`Composes`), then what is
built with one is related to what is built with the other (`Composes.build`). Only the requests for
what is mentioned count. A relation of a step with itself is a property that every step has; so
`Agrees I`, with the same requests on both sides, says that constructions keep an invariant.
-/

namespace InteropGraph.Assembly

/-- A relation between steps that is kept when steps are composed. -/
structure Composes (R : (α : Type) → Assemble α → Assemble α → Prop) : Prop where
  ofExcept : ∀ {α : Type} (r : Except Failure α), R α (ofExcept r) (ofExcept r)
  currentGraph : R Graph currentGraph currentGraph
  bind : ∀ {α β : Type} {m m' : Assemble α} {k k' : α → Assemble β},
    R α m m' → (∀ v, R β (k v) (k' v)) → R β (m >>= k) (m' >>= k')
  attempt : ∀ {α : Type} {m m' : Assemble α}, R α m m' → R (Option α) (attempt m) (attempt m')
  dependingOn : ∀ {α : Type} {m m' : Assemble α} (name : String),
    R α m m' → R α (dependingOn name m) (dependingOn name m')

variable {R : (α : Type) → Assemble α → Assemble α → Prop} {α β : Type}

namespace Composes

variable (hR : Composes R)
include hR

theorem pure (v : α) : R α (pure v) (pure v) := hR.ofExcept (.ok v)

theorem throw (f : Failure) : R α (throw f) (throw f) := hR.ofExcept (.error f)

/-- Related steps give related results when these are turned into others. -/
theorem map {m m' : Assemble α} (g : α → β) (h : R α m m') : R β (g <$> m) (g <$> m') := by
  rw [map_eq_pure_bind, map_eq_pure_bind]
  exact hR.bind h fun v => hR.pure (g v)

/-- Loops whose turns are related. -/
theorem mapM {f f' : α → Assemble β} {l : List α} (hf : ∀ x ∈ l, R β (f x) (f' x)) :
    R (List β) (l.mapM f) (l.mapM f') := by
  induction l with
  | nil => exact hR.pure []
  | cons x l ih =>
    rw [List.mapM_cons, List.mapM_cons]
    refine hR.bind (hf x List.mem_cons_self) fun v => ?_
    exact hR.bind (ih fun y hy => hf y (List.mem_cons_of_mem x hy)) fun _ => hR.pure _

/-- Loops whose turns are related, and may leave something out. -/
theorem filterMapM {f f' : α → Assemble (Option β)} {l : List α}
    (hf : ∀ x ∈ l, R (Option β) (f x) (f' x)) :
    R (List β) (l.filterMapM f) (l.filterMapM f') := by
  induction l with
  | nil => exact hR.pure []
  | cons x l ih =>
    have hrest := ih fun y hy => hf y (List.mem_cons_of_mem x hy)
    rw [List.filterMapM_cons, List.filterMapM_cons]
    refine hR.bind (hf x List.mem_cons_self) fun v => ?_
    cases v with
    | none => exact hrest
    | some _ => exact hR.bind hrest fun _ => hR.pure _

end Composes

/-! ### Conversions -/

variable {unit : SourceUnit} {settings : Settings} {entity entity' : Request}

/-- The requests for the given declarations are related. -/
def RequestsRelated (R : (α : Type) → Assemble α → Assemble α → Prop) (entity entity' : Request)
    (refs : List DeclRef) : Prop :=
  ∀ d ∈ refs, ∀ owner, R EntityId (entity d owner) (entity' d owner)

namespace Composes

variable (hR : Composes R)
include hR

/-- A dependency is one request. -/
theorem dependency {d : DeclRef} {owner : String}
    (h : R EntityId (entity d owner) (entity' d owner)) :
    R EntityId (Assembly.dependency unit entity d owner)
      (Assembly.dependency unit entity' d owner) :=
  hR.dependingOn _ h

/-- The protocols of a type are requested one by one. -/
theorem qualifiers {protocols : List DeclRef} (h : RequestsRelated R entity entity' protocols) :
    R (List EntityId) (Assembly.qualifiers entity protocols)
      (Assembly.qualifiers entity' protocols) :=
  hR.filterMapM fun p hp => hR.attempt (h p hp "")

/-- A type is converted by requests and by resolving its parts. -/
theorem convert {node : TypeNode} {type type' : TypeRef → Assemble TypeId}
    (hentity : RequestsRelated R entity entity' (node.requests unit))
    (htype : ∀ t ∈ node.parts, R TypeId (type t) (type' t)) :
    R BridgeType (Assembly.convert unit entity type node)
      (Assembly.convert unit entity' type' node) := by
  cases node with
  | primitive p => exact hR.bind (hR.ofExcept _) fun _ => hR.pure _
  | object protocols => exact hR.bind (hR.qualifiers hentity) fun _ => hR.pure _
  | objectPointer interface protocols arguments =>
    refine hR.bind (hR.dependency (hentity interface List.mem_cons_self "")) fun _ => ?_
    refine hR.bind (hR.mapM htype) fun _ => hR.bind hR.currentGraph fun _ => ?_
    refine hR.bind (hR.qualifiers fun p hp => ?_) fun _ => hR.pure _
    exact hentity p (List.mem_cons_of_mem interface hp)
  | pointer pointee => exact hR.bind (htype pointee List.mem_cons_self) fun _ => hR.pure _
  | block returns params => exact hR.bind (hR.mapM htype) fun _ => hR.pure _
  | functionPointer returns params => exact hR.bind (hR.mapM htype) fun _ => hR.pure _
  | constantArray element size =>
    exact hR.bind (htype element List.mem_cons_self) fun _ => hR.pure _
  | incompleteArray element =>
    exact hR.bind (htype element List.mem_cons_self) fun _ => hR.pure _
  | record d =>
    rw [Assembly.convert, Assembly.convert]
    cases hunion : unionName? unit d with
    | some name => exact hR.pure _
    | none =>
      refine hR.bind (hR.dependency (hentity d ?_ "")) fun _ => hR.pure _
      simp [TypeNode.requests, TypeNode.dependencies, hunion]
  | enumeration d =>
    exact hR.bind (hR.dependency (hentity d List.mem_cons_self "")) fun _ => hR.pure _
  | typeParameter name => exact hR.pure _
  | «alias» name underlying =>
    rw [Assembly.convert, Assembly.convert]
    cases hname : namedType? name with
    | some s => exact hR.pure _
    | none =>
      rw [parts_alias_of_none hname] at htype
      refine hR.bind (htype underlying List.mem_cons_self) fun id =>
        hR.bind hR.currentGraph fun g => ?_
      cases g.type? id with
      | some type => exact hR.pure _
      | none => exact hR.throw _

/-! ### Constructions -/

/-- A signature is resolved type by type. -/
theorem signature {callable : Callable}
    (htype : ∀ t ∈ callable.returns :: callable.params.map Parameter.type,
      R TypeId (resolve unit entity [] t) (resolve unit entity' [] t)) :
    R (List TypeId) (Assembly.signature unit entity callable)
      (Assembly.signature unit entity' callable) :=
  hR.mapM htype

/-- The protocols of a container are requested one by one. -/
theorem gatherProtocols {l : List DeclRef}
    (hl : ∀ d ∈ l, R EntityId (entity d "") (entity' d "")) :
    R (List EntityId) (Assembly.gatherProtocols entity l)
      (Assembly.gatherProtocols entity' l) := by
  refine hR.filterMapM fun d hd => hR.bind (hR.attempt (hl d hd)) fun id? => ?_
  cases id? with
  | none => exact hR.pure _
  | some id => exact hR.bind hR.currentGraph fun _ => hR.pure _

/-- Members are requested one by one. -/
theorem gatherStatic {l : List DeclRef} {owner : String}
    (hl : ∀ d ∈ l, R EntityId (entity d owner) (entity' d owner)) :
    R (List (EntityId × Bool)) (Assembly.gatherStatic entity l owner)
      (Assembly.gatherStatic entity' l owner) := by
  refine hR.filterMapM fun d hd => hR.bind (hR.attempt (hl d hd)) fun id? => ?_
  cases id? with
  | none => exact hR.pure _
  | some id => exact hR.bind hR.currentGraph fun _ => hR.pure _

/-- A container requests its protocols, methods and properties. -/
theorem gatherMembers {refs : MemberRefs} {owner : String}
    (hentity : RequestsRelated R entity entity' refs.all) :
    R Members (Assembly.gatherMembers entity refs owner)
      (Assembly.gatherMembers entity' refs owner) := by
  refine hR.bind (hR.gatherProtocols fun d hd => ?_) fun protocols =>
    hR.bind (hR.gatherStatic fun d hd => ?_) fun methods =>
      hR.bind (hR.gatherStatic fun d hd => ?_) fun properties =>
        hR.bind hR.currentGraph fun _ => hR.pure _
  · exact hentity d (List.mem_append_left _ (List.mem_append_left _ hd)) ""
  · exact hentity d (List.mem_append_left _ (List.mem_append_right _ hd)) owner
  · exact hentity d (List.mem_append_right _ hd) owner

/-- There may be nothing to request. -/
theorem optionalDependency {d : Option DeclRef} {owner : String}
    (hentity : ∀ x ∈ d.toList, R EntityId (entity x owner) (entity' x owner)) :
    R (Option EntityId) (Assembly.optionalDependency unit entity owner d)
      (Assembly.optionalDependency unit entity' owner d) := by
  cases d with
  | none => exact hR.pure none
  | some d => exact hR.map some (hR.dependency (hentity d List.mem_cons_self))

end Composes

/-- What the construction of a declaration asks for is related. -/
structure ShapeRelated (R : (α : Type) → Assemble α → Assemble α → Prop) (unit : SourceUnit)
    (entity entity' : Request) (shape : Shape) : Prop where
  requests : RequestsRelated R entity entity' shape.requests
  types : ∀ t ∈ shape.typesNamed, R TypeId (resolve unit entity [] t) (resolve unit entity' [] t)

/-- Whatever relates the requests and the types of a declaration relates how it is built. -/
theorem Composes.buildShape (hR : Composes R) {decl : Declaration}
    (h : ShapeRelated R unit entity entity' decl.shape) (owner : String) :
    R Entity (Assembly.buildShape unit settings entity decl owner)
      (Assembly.buildShape unit settings entity' decl owner) := by
  obtain ⟨hrequests, htypes⟩ := h
  unfold Assembly.buildShape
  cases hshape : decl.shape with
  | function callable =>
    rw [hshape] at htypes
    exact hR.bind (hR.ofExcept _) fun _ => hR.bind (hR.signature htypes) fun _ => hR.pure _
  | record isUnion fields =>
    rw [hshape] at htypes
    have hfields : R (List EntityField)
        (fields.mapM fun f => do
          let type ← Assembly.dependingOn ("field '" ++ f.name ++ "'")
            (resolve unit entity [] f.type)
          return (⟨f.name, type⟩ : EntityField))
        (fields.mapM fun f => do
          let type ← Assembly.dependingOn ("field '" ++ f.name ++ "'")
            (resolve unit entity' [] f.type)
          return (⟨f.name, type⟩ : EntityField)) :=
      hR.mapM fun f hf => hR.bind
        (hR.dependingOn _ (htypes f.type (List.mem_map.mpr ⟨f, hf, rfl⟩))) fun _ => hR.pure _
    cases isUnion with
    | true => exact hR.bind (hR.throw _) fun _ => hR.bind hfields fun _ => hR.pure _
    | false => exact hR.bind hfields fun _ => hR.pure _
  | «variable» type initializer =>
    rw [hshape] at htypes
    exact hR.bind (hR.ofExcept _) fun _ => hR.bind (htypes type List.mem_cons_self) fun _ =>
      hR.pure _
  | enumeration _ constants => exact hR.bind (hR.ofExcept _) fun _ => hR.pure _
  | enumConstant value => exact hR.pure _
  | interface superclass members _ =>
    rw [hshape] at hrequests
    refine hR.bind (hR.optionalDependency fun x hx => ?_) fun _ =>
      hR.bind (hR.gatherMembers fun x hx => ?_) fun _ => hR.pure _
    · exact hrequests x (List.mem_append_left _ hx) ""
    · exact hrequests x (List.mem_append_right _ (by simpa [Shape.members?] using hx))
  | protocol members =>
    rw [hshape] at hrequests
    refine hR.bind (hR.gatherMembers fun x hx => ?_) fun _ => hR.pure _
    exact hrequests x (List.mem_append_right _ (by simpa [Shape.members?] using hx))
  | category interface members =>
    rw [hshape] at hrequests
    refine hR.bind (hR.dependency ?_) fun _ => hR.bind (hR.gatherMembers fun x hx => ?_) fun _ =>
      hR.pure _
    · exact hrequests interface (List.mem_append_left _ (List.mem_singleton.mpr rfl)) ""
    · exact hrequests x (List.mem_append_right _ (by simpa [Shape.members?] using hx))
  | method callable _ _ _ =>
    rw [hshape] at htypes
    exact hR.bind (hR.ofExcept _) fun _ => hR.bind (hR.signature htypes) fun _ => hR.pure _
  | property getter setter _ _ =>
    rw [hshape] at hrequests
    refine hR.bind (hR.optionalDependency fun x hx => ?_) fun _ =>
      hR.bind (hR.optionalDependency fun x hx => ?_) fun _ => hR.pure _
    · exact hrequests x (List.mem_append_left _ (List.mem_append_left _ hx)) owner
    · exact hrequests x (List.mem_append_left _ (List.mem_append_right _ hx)) owner

/-- The window of a declaration is looked at alike. -/
theorem Composes.build (hR : Composes R) {d : DeclRef} {decl : Declaration}
    (h : ShapeRelated R unit entity entity' decl.shape) (owner : String) :
    R Entity (Assembly.build unit settings entity d decl owner)
      (Assembly.build unit settings entity' d decl owner) :=
  hR.bind (hR.ofExcept _) fun _ => hR.bind (hR.buildShape h owner) fun _ => hR.pure _

/-! ### Agreement

The relation that is needed most: two steps do the same wherever an invariant holds, and keep it. -/

/-- Where `I` holds the two steps do the same, and it holds afterwards. -/
def Agrees (I : Assembly → Prop) (α : Type) (m m' : Assemble α) : Prop :=
  ∀ a, I a → m.run a = m'.run a ∧ I (m.run a).2

/-- Steps that agree on the states with an invariant can be composed. -/
theorem Agrees.composes (I : Assembly → Prop) : Composes (Agrees I) where
  ofExcept r a ha := by
    rw [run_ofExcept]
    exact ⟨rfl, ha⟩
  currentGraph a ha := ⟨rfl, ha⟩
  bind {α β m m' k k'} hm hk a ha := by
    obtain ⟨heq, hI⟩ := hm a ha
    rw [run_bind, run_bind, ← heq]
    rcases hrun : m.run a with ⟨f | v, b⟩
    · rw [hrun] at hI
      exact ⟨rfl, hI⟩
    · rw [hrun] at hI
      exact hk v b hI
  attempt {α m m'} hm a ha := by
    obtain ⟨heq, hI⟩ := hm a ha
    rw [run_attempt, run_attempt, ← heq]
    exact ⟨rfl, hI⟩
  dependingOn {α m m'} name hm a ha := by
    obtain ⟨heq, hI⟩ := hm a ha
    rw [run_dependingOn, run_dependingOn, ← heq]
    exact ⟨rfl, hI⟩

/-- The types in `S`, which holds their parts as well, are resolved in the same way if what they
name is requested in the same way, and a type may be added that has just been converted and had no
place before. -/
theorem Agrees.resolve_within {I : Assembly → Prop} {S : TypeRef → Prop}
    (hparts : ∀ t node, S t → unit.type? t = some node → ∀ u ∈ node.parts, S u)
    (hentity : ∀ t node, S t → unit.type? t = some node →
      RequestsRelated (Agrees I) entity entity' (node.requests unit))
    (haddType : ∀ resolving t node type a b, S t → a.typeId? t = none →
      unit.type? t = some node →
        (convert unit entity (resolve unit entity (t :: resolving)) node).run a = (.ok type, b) →
          I b → I ((addType t type).run b).2)
    (resolving : List TypeRef) (t : TypeRef) (hS : S t) :
    Agrees I TypeId (resolve unit entity resolving t) (resolve unit entity' resolving t) := by
  induction resolving, t using resolve.induct unit with
  | case1 resolving t ih =>
    intro a ha
    cases ht : a.typeId? t with
    | some id =>
      rw [resolve_of_known ht, resolve_of_known ht]
      exact ⟨rfl, ha⟩
    | none =>
      cases hu : unit.type? t with
      | none =>
        rw [resolve_of_dangling ht hu, resolve_of_dangling ht hu]
        exact ⟨rfl, ha⟩
      | some node =>
        by_cases hr : t ∈ resolving
        · rw [resolve_of_cycle ht hu hr, resolve_of_cycle ht hu hr]
          exact ⟨rfl, ha⟩
        · rw [resolve_of_fresh ht hu hr, resolve_of_fresh ht hu hr]
          have hconvert : Agrees I BridgeType
              (convert unit entity (Assembly.resolve unit entity (t :: resolving)) node)
              (convert unit entity' (Assembly.resolve unit entity' (t :: resolving)) node) :=
            (composes I).convert (hentity t node hS hu)
              fun u hmem => ih node hu hr u (hparts t node hS hu u hmem)
          obtain ⟨heq, hI⟩ := hconvert a ha
          rw [run_bind, run_bind, ← heq]
          rcases hrun : (convert unit entity (Assembly.resolve unit entity (t :: resolving))
            node).run a with ⟨f | type, b⟩
          · rw [hrun] at hI
            exact ⟨rfl, hI⟩
          · rw [hrun] at hI
            exact ⟨rfl, haddType resolving t node type a b hS ht hu hrun hI⟩

/-- Likewise for all types at once. -/
theorem Agrees.resolve_of {I : Assembly → Prop}
    (haddType : ∀ resolving t node type a b, a.typeId? t = none → unit.type? t = some node →
      (convert unit entity (resolve unit entity (t :: resolving)) node).run a = (.ok type, b) →
        I b → I ((addType t type).run b).2)
    (hentity : ∀ d owner, Agrees I EntityId (entity d owner) (entity' d owner))
    (resolving : List TypeRef) (t : TypeRef) :
    Agrees I TypeId (resolve unit entity resolving t) (resolve unit entity' resolving t) :=
  resolve_within (S := fun _ => True) (fun _ _ _ _ _ _ => trivial)
    (fun _ _ _ _ d _ => hentity d)
    (fun resolving t node type a b _ => haddType resolving t node type a b) resolving t trivial

/-- Likewise if any type may be added. -/
theorem Agrees.resolve {I : Assembly → Prop}
    (haddType : ∀ t type a, I a → I ((addType t type).run a).2)
    (hentity : ∀ d owner, Agrees I EntityId (entity d owner) (entity' d owner))
    (resolving : List TypeRef) (t : TypeRef) :
    Agrees I TypeId (resolve unit entity resolving t) (resolve unit entity' resolving t) :=
  resolve_of (fun _ t _ type _ b _ _ _ => haddType t type b) hentity resolving t

/-- Declarations are built in the same way if what they name is requested in the same way. -/
theorem Agrees.build {I : Assembly → Prop}
    (haddType : ∀ t type a, I a → I ((addType t type).run a).2)
    (hentity : ∀ d owner, Agrees I EntityId (entity d owner) (entity' d owner)) (d : DeclRef)
    (decl : Declaration) (owner : String) :
    Agrees I Entity (build unit settings entity d decl owner)
      (build unit settings entity' d decl owner) :=
  (composes I).build ⟨fun d _ => hentity d, fun t _ => resolve haddType hentity [] t⟩ owner

/-- Requests keep an invariant if constructions do that are made of such requests. -/
theorem Agrees.request {I : Assembly → Prop} (hcountHit : ∀ a, I a → I a.countHit)
    (hconstruct : ∀ active d decl owner a, a.answer? d = none → unit.declaration? d = some decl →
      (∀ x owner, Agrees I EntityId (request unit settings (d :: active) x owner)
        (request unit settings (d :: active) x owner)) → I a →
          I ((construct d (Assembly.build unit settings (request unit settings (d :: active)) d decl
            owner)).run a).2)
    (active : List DeclRef) (d : DeclRef) (owner : String) :
    Agrees I EntityId (request unit settings active d owner)
      (request unit settings active d owner) := by
  induction active, d, owner using request.induct unit with
  | case1 active d owner ih =>
    refine fun a ha => ⟨rfl, ?_⟩
    obtain ⟨r, -, hrun⟩ | ⟨-, -, hrun⟩ | ⟨decl, -, -, -, hrun⟩ | ⟨decl, hd, hu, hactive, hrun⟩ :=
      request_cases unit settings active d owner a
    · rw [hrun]
      exact hcountHit a ha
    · rw [hrun]
      exact ha
    · rw [hrun]
      exact ha
    · rw [hrun]
      exact hconstruct active d decl owner a hd hu (ih decl hu hactive) ha

end InteropGraph.Assembly
