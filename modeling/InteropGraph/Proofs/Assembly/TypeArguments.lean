import InteropGraph.Proofs.Assembly.Denotes
import InteropGraph.Proofs.Assembly.Memory
import InteropGraph.Proofs.Source

/-!
# Type arguments

An interface type keeps its type arguments only if none of them is a type parameter
(`Graph.ArgumentsBound`). The types of an arena refer to each other by their places, and nothing
that has a place changes, so this is looked at when a type is added and holds ever after; nested
type arguments have been looked at when their own types were added. A type parameter that is a part
of a pointer, an array, a block or a function pointer is not noticed: what is kept reaches type
parameters in this way and in no other.
-/

namespace InteropGraph

/-- The types that a resolved type is made of. -/
def BridgeType.parts : BridgeType → List TypeId
  | .interface _ _ arguments => arguments
  | .pointer t | .constantArray t _ | .incompleteArray t => [t]
  | .block signature | .functionPointer signature => signature
  | .scalar _ | .object _ | .typeParameter _ | .struct _ | .union _ | .enumeration _ => []

/-- Whether a type is a pointer, an array, a block or a function pointer. -/
def BridgeType.isWrapper : BridgeType → Bool
  | .pointer _ | .constantArray .. | .incompleteArray _ | .block _ | .functionPointer _ => true
  | _ => false

namespace Graph

/-- The type at `u` is a part of the type at `t`. -/
def HasPart (g : Graph) (t u : TypeId) : Prop :=
  ∃ type, g.type? t = some type ∧ u ∈ type.parts

/-- No interface type has an argument that is a type parameter. -/
def ArgumentsBound (g : Graph) : Prop :=
  ∀ id e protocols arguments, g.type? id = some (.interface e protocols arguments) →
    Assembly.closedArguments g arguments = true

/-- Closed arguments have types, which stay where they are while the arena grows. -/
theorem closedArguments_mono {g g' : Graph}
    (h : ∀ id type, g.type? id = some type → g'.type? id = some type) {ids : List TypeId}
    (hids : Assembly.closedArguments g ids = true) : Assembly.closedArguments g' ids = true := by
  have hsame : ∀ id ∈ ids, g'.type? id = g.type? id := by
    intro id hid
    obtain ⟨type, htype, -⟩ := (Option.any_eq_true _ _).mp (List.all_eq_true.mp hids id hid)
    rw [htype, h id type htype]
  rw [Assembly.closedArguments_congr hsame]
  exact hids

/-- A type may be added if its arguments are closed. -/
theorem ArgumentsBound.addType {g : Graph} (hg : g.ArgumentsBound) {type : BridgeType}
    (htype : ∀ e protocols arguments, type = .interface e protocols arguments →
      Assembly.closedArguments g arguments = true) : (g.addType type).2.ArgumentsBound := by
  intro id e protocols arguments hid
  refine closedArguments_mono (fun _ _ h => type?_addType_of_some h type) ?_
  rw [type?_addType] at hid
  by_cases hplace : id = (g.addType type).1
  · rw [if_pos hplace] at hid
    exact htype e protocols arguments (Option.some.inj hid)
  · rw [if_neg hplace] at hid
    exact hg id e protocols arguments hid

/-- What reaches a type parameter from a type argument ends with a wrapper around it. -/
theorem ArgumentsBound.wrapped {g : Graph} (hg : g.ArgumentsBound) {id t : TypeId} {e : EntityId}
    {protocols : List EntityId} {arguments : List TypeId}
    (hid : g.type? id = some (.interface e protocols arguments)) {argument : TypeId}
    (hargument : argument ∈ arguments) (hreach : Relation.ReflTransGen g.HasPart argument t)
    {name : String} (ht : g.type? t = some (.typeParameter name)) :
    ∃ s type, Relation.ReflTransGen g.HasPart argument s ∧ g.type? s = some type ∧
      type.isWrapper = true ∧ t ∈ type.parts := by
  -- an interface type does not have `t` among its arguments
  have hnot {x : TypeId} {e : EntityId} {protocols : List EntityId} {arguments : List TypeId}
      (hx : g.type? x = some (.interface e protocols arguments)) : t ∉ arguments := by
    intro hmem
    have hparameter := List.all_eq_true.mp (hg x e protocols arguments hx) t hmem
    rw [ht] at hparameter
    cases hparameter
  cases hreach with
  | refl => exact absurd hargument (hnot hid)
  | @tail s _ hreach hpart =>
    obtain ⟨type, htype, hmem⟩ := hpart
    cases type with
    | interface => exact absurd hmem (hnot htype)
    | pointer | constantArray | incompleteArray | block | functionPointer =>
      exact ⟨s, _, hreach, htype, rfl, hmem⟩
    | scalar | object | typeParameter | struct | union | enumeration => cases hmem

end Graph

namespace Assembly

variable {unit : SourceUnit} {settings : Settings} {entity : Request}

/-- The type arguments in the arena are bound. -/
abbrev Bound (a : Assembly) : Prop := a.graph.ArgumentsBound

/-- What a type is converted to has bound arguments: they have just been looked at, or they are
those of another type. -/
theorem closedArguments_of_convert (hentity : ∀ d owner, Extending unit (entity d owner))
    {type : TypeRef → Assemble TypeId} {node : TypeNode} {a b : Assembly} {new : BridgeType}
    (hrun : (convert unit entity type node).run a = (.ok new, b)) (hb : Bound b) :
    ∀ e protocols arguments, new = .interface e protocols arguments →
      closedArguments b.graph arguments = true := by
  rintro e protocols arguments rfl
  cases node with
  | objectPointer interface refs parts =>
    obtain ⟨i, a₁, -, hrun⟩ := of_run_bind hrun
    obtain ⟨ids, a₂, -, hrun⟩ := of_run_bind hrun
    obtain ⟨g, a₃, hgraph, hrun⟩ := of_run_bind hrun
    obtain ⟨places, a₄, hplaces, hpure⟩ := of_run_bind hrun
    cases hgraph
    cases hpure
    -- the protocols are requested after the look at the arguments, which does no harm
    have hext : Extends unit a₂ ((qualifiers entity refs).run a₂).2 :=
      ((extending_composes unit).qualifiers fun d _ owner => ⟨rfl, hentity d owner⟩).2 a₂
    rw [hplaces] at hext
    by_cases hclosed : closedArguments a₂.graph ids = true
    · rw [if_pos hclosed]
      exact Graph.closedArguments_mono (fun _ _ h => hext.type h) hclosed
    · rw [if_neg hclosed]
      rfl
  | «alias» name underlying =>
    rw [convert] at hrun
    cases hname : namedType? name with
    | some s =>
      rw [hname] at hrun
      cases hrun
    | none =>
      rw [hname] at hrun
      obtain ⟨id, a₁, -, hrun⟩ := of_run_bind hrun
      obtain ⟨g, a₂, hgraph, hrun⟩ := of_run_bind hrun
      cases hgraph
      cases hid : a₁.graph.type? id with
      | none =>
        rw [hid] at hrun
        cases hrun
      | some old =>
        rw [hid] at hrun
        cases hrun
        exact hb id e protocols arguments hid
  | record d =>
    rw [convert] at hrun
    cases hunion : unionName? unit d with
    | some name =>
      rw [hunion] at hrun
      cases hrun
    | none =>
      rw [hunion] at hrun
      obtain ⟨_, _, -, hpure⟩ := of_run_bind hrun
      cases hpure
  | typeParameter name => cases hrun
  | primitive | object | pointer | block | functionPointer | constantArray | incompleteArray |
    enumeration =>
    obtain ⟨_, _, -, hpure⟩ := of_run_bind hrun
    cases hpure

/-- Constructions put nothing into the arena but the types that are resolved. -/
theorem construct_bound {d : DeclRef} {steps : Assemble Entity}
    (hsteps : Agrees Bound Entity steps steps) {a : Assembly} (ha : Bound a) :
    Bound ((construct d steps).run a).2 := by
  have h := (hsteps (a.begin d).2 ha).2
  rw [run_construct]
  rcases hrun : steps.run (a.begin d).2 with ⟨f | e, b⟩
  · rw [hrun] at h
    exact h
  · rw [hrun] at h
    exact h

/-- Building adds no reference with open arguments. -/
theorem build_bound (hextending : ∀ d owner, Extending unit (entity d owner))
    (hentity : ∀ d owner, Agrees Bound EntityId (entity d owner) (entity d owner)) (d : DeclRef)
    (decl : Declaration) (owner : String) :
    Agrees Bound Entity (build unit settings entity d decl owner)
      (build unit settings entity d decl owner) := by
  refine (Agrees.composes _).build ⟨fun x _ => hentity x, fun t _ => ?_⟩ owner
  refine .resolve_of (fun resolving u node new b c _ _ hrun hc => ?_) hentity [] t
  exact hc.addType (closedArguments_of_convert hextending hrun hc)

/-- Requests add none, whatever they set in motion. -/
theorem request_bound (active : List DeclRef) (d : DeclRef) (owner : String) :
    Agrees Bound EntityId (request unit settings active d owner)
      (request unit settings active d owner) := by
  refine .request (fun _ ha => ha) (fun active d decl owner a _ _ ih ha => ?_) active d owner
  exact construct_bound (build_bound (request_extending unit settings _) ih d decl owner) ha

/-- A call from outside adds none. -/
theorem Call.run_bound (unit : SourceUnit) (settings : Settings) (c : Call) {a : Assembly}
    (ha : Bound a) : Bound (afterCall unit settings a c) := by
  unfold afterCall step
  by_cases hanew : c.anew
  · rw [if_pos hanew]
    cases hdecl : unit.declaration? c.decl with
    | none =>
      rw [recreate_of_dangling hdecl]
      exact ha
    | some decl =>
      rw [recreate_of_declared hdecl]
      exact construct_bound (build_bound (request_extending unit settings [c.decl])
        (request_bound [c.decl]) c.decl decl c.owner) ha
  · rw [if_neg hanew]
    exact (request_bound [] c.decl c.owner a ha).2

/-- There are none after any calls. -/
theorem bound_afterCalls (unit : SourceUnit) (settings : Settings) (calls : List Call) :
    Bound (afterCalls unit settings calls) := by
  have hempty : Bound .empty := nofun
  exact List.foldlRecOn calls _ hempty fun a ha c _ => c.run_bound unit settings ha

/-- **Type arguments.** Whatever has been called for, a type parameter that is reached from a type
argument is a part of a pointer, an array, a block or a function pointer that is reached from there.
No type argument is a type parameter, nor is a type argument of a type argument. -/
theorem reached_parameter_wrapped (unit : SourceUnit) (settings : Settings) (calls : List Call)
    {id argument t : TypeId} {e : EntityId} {protocols : List EntityId} {arguments : List TypeId}
    {name : String}
    (hid : (afterCalls unit settings calls).graph.type? id =
      some (.interface e protocols arguments)) (hargument : argument ∈ arguments)
    (hreach : Relation.ReflTransGen (afterCalls unit settings calls).graph.HasPart argument t)
    (ht : (afterCalls unit settings calls).graph.type? t = some (.typeParameter name)) :
    ∃ s type, Relation.ReflTransGen (afterCalls unit settings calls).graph.HasPart argument s ∧
      (afterCalls unit settings calls).graph.type? s = some type ∧ type.isWrapper = true ∧
        t ∈ type.parts :=
  (bound_afterCalls unit settings calls).wrapped hid hargument hreach ht

/-! ### A parameter behind a pointer -/

open SourceUnit in
/-- A function that returns an array of pointers to a type parameter. -/
def pointerArgument : SourceUnit where
  declarations := #[plainDeclaration "Array" (.interface none .empty ["T"]),
    plainDeclaration "f" (.function ⟨⟨2⟩, [], false⟩)]
  types := #[.typeParameter "T", .pointer ⟨0⟩, .objectPointer ⟨0⟩ [] [⟨1⟩]]

/-- The pointer is kept as a type argument. -/
theorem types_pointerArgument :
    (afterCalls pointerArgument .default [⟨⟨1⟩, false, ""⟩]).graph.types =
      #[.typeParameter "T", .pointer ⟨0⟩, .interface ⟨1⟩ [] [⟨1⟩]] := by
  decide +kernel

/-- The arena of the example, place by place. -/
theorem type_pointerArgument (id : TypeId) {type : BridgeType}
    (h : #[.typeParameter "T", .pointer ⟨0⟩, .interface ⟨1⟩ [] [⟨1⟩]][id.index]? = some type) :
    (afterCalls pointerArgument .default [⟨⟨1⟩, false, ""⟩]).graph.type? id = some type := by
  rw [← types_pointerArgument] at h
  exact h

/-- The parameter is a part of the argument. -/
theorem reach_pointerArgument :
    Relation.ReflTransGen
      (afterCalls pointerArgument .default [⟨⟨1⟩, false, ""⟩]).graph.HasPart ⟨1⟩ ⟨0⟩ :=
  .single ⟨_, type_pointerArgument ⟨1⟩ rfl, List.mem_cons_self⟩

/-- **A parameter reached from an argument.** In `pointerArgument` the parameter is reached from the
type argument that is kept. -/
theorem parameter_reached_pointerArgument :
    ∃ id e protocols arguments argument t name,
      (afterCalls pointerArgument .default [⟨⟨1⟩, false, ""⟩]).graph.type? id =
        some (.interface e protocols arguments) ∧
      argument ∈ arguments ∧
      Relation.ReflTransGen
        (afterCalls pointerArgument .default [⟨⟨1⟩, false, ""⟩]).graph.HasPart argument t ∧
      (afterCalls pointerArgument .default [⟨⟨1⟩, false, ""⟩]).graph.type? t =
        some (.typeParameter name) :=
  ⟨⟨2⟩, ⟨1⟩, [], [⟨1⟩], ⟨1⟩, ⟨0⟩, "T", type_pointerArgument ⟨2⟩ rfl, List.mem_cons_self,
    reach_pointerArgument, type_pointerArgument ⟨0⟩ rfl⟩

/-- It is a part of something that wraps it. -/
theorem reached_parameter_wrapped_pointerArgument :
    ∃ s type, Relation.ReflTransGen
        (afterCalls pointerArgument .default [⟨⟨1⟩, false, ""⟩]).graph.HasPart ⟨1⟩ s ∧
      (afterCalls pointerArgument .default [⟨⟨1⟩, false, ""⟩]).graph.type? s = some type ∧
        type.isWrapper = true ∧ ⟨0⟩ ∈ type.parts := by
  have hinterface := type_pointerArgument ⟨2⟩ rfl
  have hparameter := type_pointerArgument ⟨0⟩ rfl
  exact reached_parameter_wrapped pointerArgument .default [⟨⟨1⟩, false, ""⟩] hinterface
    List.mem_cons_self reach_pointerArgument hparameter

end Assembly

end InteropGraph
