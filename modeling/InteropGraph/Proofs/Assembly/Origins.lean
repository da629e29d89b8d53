import InteropGraph.Proofs.Assembly.Lockstep

/-!
# Where entities come from

Whatever is asked for and whatever fails, an entity that names a declaration as its source has the
module of that declaration, and its kind (`Graph.IsFaithful`). Nothing is said of slots that stay
vacant, and nothing is asked of the memory.
-/

namespace InteropGraph

/-- The kind of the entities of a declaration. Unions have none. -/
def Shape.entityKind : Shape → Kind
  | .function .. => .function
  | .record .. => .struct
  | .variable .. => .variable
  | .enumeration .. => .enumeration
  | .enumConstant .. => .enumConstant
  | .interface .. => .interface
  | .protocol .. => .protocol
  | .category .. => .category
  | .method .. => .method
  | .property .. => .property

/-- Containers are the interfaces, protocols and categories. -/
theorem Shape.exists_members?_iff {shape : Shape} : (∃ refs, shape.members? = some refs) ↔
    shape.entityKind = .interface ∨ shape.entityKind = .protocol ∨
      shape.entityKind = .category := by
  cases shape <;> simp [members?, entityKind]

/-- Containers are declared at the top level. -/
theorem Shape.isTopLevel_of_members? {shape : Shape} {refs : MemberRefs}
    (h : shape.members? = some refs) : shape.isTopLevel = true := by
  cases shape with
  | method | property => cases h
  | _ => rfl

/-- `e` has the source, the module and the kind that an entity of the declaration `decl` at `d`
has. -/
structure Entity.IsOf (d : DeclRef) (decl : Declaration) (e : Entity) : Prop where
  source : e.source = some d
  module : e.module = decl.module
  kind : e.kind = decl.shape.entityKind

/-- `P` holds of the entities of a graph and of the declarations that are their sources. -/
def Graph.Sourced (P : DeclRef → Declaration → Entity → Prop) (unit : SourceUnit) (g : Graph) :
    Prop :=
  ∀ id e d decl, g.entity? id = some e → e.source = some d → unit.declaration? d = some decl →
    P d decl e

/-- The entities of a graph have the modules and the kinds of their sources. -/
def Graph.IsFaithful (unit : SourceUnit) (g : Graph) : Prop :=
  ∀ id e d decl, g.entity? id = some e → e.source = some d → unit.declaration? d = some decl →
    e.IsOf d decl

namespace Assembly

variable {α β : Type} {unit : SourceUnit} {settings : Settings} {entity : Request}

/-! ### What a step gives -/

/-- Whatever `m` gives has the property `P`. -/
def Yields (P : α → Prop) (m : Assemble α) : Prop :=
  ∀ a v, (m.run a).1 = .ok v → P v

namespace Yields

variable {P : β → Prop}

theorem pure {v : β} (h : P v) : Yields P (pure v) := by
  rintro a _ ⟨⟩
  exact h

/-- Only the last step counts. -/
theorem bind {m : Assemble α} {k : α → Assemble β} (hk : ∀ v, Yields P (k v)) :
    Yields P (m >>= k) := by
  intro a v hv
  obtain ⟨w, b, -, hrest⟩ := of_run_bind (c := ((m >>= k).run a).2) (Prod.ext hv rfl)
  exact hk w b v (by rw [hrest])

/-- Behind a check what follows has to do only with the result of one that passes. -/
theorem ofExcept_bind {r : Except Failure α} {k : α → Assemble β}
    (hk : ∀ v, r = .ok v → Yields P (k v)) : Yields P (ofExcept r >>= k) := by
  intro a v hv
  rw [run_bind, run_ofExcept] at hv
  cases hr : r with
  | error f =>
    rw [hr] at hv
    cases hv
  | ok w =>
    rw [hr] at hv
    exact hk w hr a v hv

end Yields

/-- The kind and the module of an entity are fixed by its declaration. -/
theorem buildShape_yields (decl : Declaration) (owner : String) :
    Yields (fun e : Entity => e.module = decl.module ∧ e.kind = decl.shape.entityKind)
      (buildShape unit settings entity decl owner) := by
  unfold buildShape
  cases decl.shape with
  | function callable => exact .bind fun _ => .bind fun _ => .pure ⟨rfl, rfl⟩
  | record isUnion fields =>
    cases isUnion with
    | true => exact .bind fun _ => .bind fun _ => .pure ⟨rfl, rfl⟩
    | false => exact .bind fun _ => .pure ⟨rfl, rfl⟩
  | «variable» type initializer => exact .bind fun _ => .bind fun _ => .pure ⟨rfl, rfl⟩
  | enumeration _ constants => exact .bind fun _ => .pure ⟨rfl, rfl⟩
  | enumConstant value => exact .pure ⟨rfl, rfl⟩
  | interface superclass members _ => exact .bind fun _ => .bind fun _ => .pure ⟨rfl, rfl⟩
  | protocol members => exact .bind fun _ => .pure ⟨rfl, rfl⟩
  | category interface members => exact .bind fun _ => .bind fun _ => .pure ⟨rfl, rfl⟩
  | method callable _ _ _ => exact .bind fun _ => .bind fun _ => .pure ⟨rfl, rfl⟩
  | property getter setter _ _ => exact .bind fun _ => .bind fun _ => .pure ⟨rfl, rfl⟩

/-- An entity is what its kind makes of it, with the source and the window of its declaration. -/
theorem Yields.build {d : DeclRef} {decl : Declaration} {owner : String} {P Q : Entity → Prop}
    (h : Yields P (buildShape unit settings entity decl owner))
    (hQ : ∀ (e : Entity) introduced deprecated obsoleted, P e →
      Q { e with source := some d, introduced, deprecated, obsoleted }) :
    Yields Q (build unit settings entity d decl owner) := by
  refine .bind fun window a v hv => ?_
  obtain ⟨e, b, hshape, hpure⟩ := of_run_bind (Prod.ext hv rfl)
  cases hpure
  exact hQ e _ _ _ (h a e (by rw [hshape]))

/-- What is built has the origin of its declaration. -/
theorem build_yields (d : DeclRef) (decl : Declaration) (owner : String) :
    Yields (Entity.IsOf d decl) (build unit settings entity d decl owner) :=
  (buildShape_yields decl owner).build fun _ _ _ _ h => ⟨rfl, h.1, h.2⟩

/-! ### Requests -/

/-- A property that every change of the state keeps. What is put into a slot is known to be related
to its declaration by `P`. -/
structure Invariant (unit : SourceUnit) (P : DeclRef → Declaration → Entity → Prop)
    (I : Assembly → Prop) : Prop where
  addType : ∀ t type a, I a → I ((addType t type).run a).2
  countHit : ∀ a, I a → I a.countHit
  begin : ∀ a d, I a → I (a.begin d).2
  complete : ∀ a slot e d decl, unit.declaration? d = some decl → P d decl e → I a →
    I (a.complete slot e)
  abandon : ∀ a m d f, I a → I (a.abandon m d f)

section

variable {P : DeclRef → Declaration → Entity → Prop} {I : Assembly → Prop}

namespace Invariant

/-- A construction keeps an invariant that its steps keep. -/
theorem construct (h : Invariant unit P I) {d : DeclRef} {decl : Declaration}
    (hdecl : unit.declaration? d = some decl) {steps : Assemble Entity}
    (hsteps : Agrees I Entity steps steps) (hyields : Yields (P d decl) steps)
    {a : Assembly} (ha : I a) : I ((construct d steps).run a).2 := by
  obtain ⟨-, hkeeps⟩ := hsteps (a.begin d).2 (h.begin a d ha)
  rw [run_construct]
  rcases hrun : steps.run (a.begin d).2 with ⟨f | e, b⟩
  · rw [hrun] at hkeeps
    exact h.abandon b a.mark d f hkeeps
  · rw [hrun] at hkeeps
    exact h.complete b _ e d decl hdecl (hyields _ e (by rw [hrun])) hkeeps

/-- Requests keep an invariant, whatever they set in motion. -/
theorem request (h : Invariant unit P I)
    (hyields : ∀ entity d decl owner, Yields (P d decl) (build unit settings entity d decl owner))
    (active : List DeclRef) (d : DeclRef) (owner : String) :
    Agrees I EntityId (request unit settings active d owner)
      (Assembly.request unit settings active d owner) := by
  refine .request h.countHit (fun active d decl owner a _ hu ih ha => ?_) active d owner
  exact h.construct hu (.build h.addType ih d decl owner) (hyields _ d decl owner) ha

end Invariant

/-- What is known of built entities is known of all entities with a source. -/
theorem invariant_sourced (unit : SourceUnit)
    (hsource : ∀ d decl e, P d decl e → e.source = some d) :
    Invariant unit P fun a => a.graph.Sourced P unit where
  addType _ _ _ h := h
  countHit _ h := h
  begin a d h id e x decl he := by
    rw [entity?_begin] at he
    exact h id e x decl he
  complete a slot e d decl hdecl he h id e' x decl' he' hs hdecl' := by
    rcases Graph.entity?_of_fill he' with rfl | he'
    · obtain rfl : d = x := Option.some.inj ((hsource d decl _ he).symm.trans hs)
      obtain rfl : decl = decl' := Option.some.inj (hdecl.symm.trans hdecl')
      exact he
    · exact h id e' x decl' he' hs hdecl'
  abandon _ _ _ _ h := h

end

/-- What is requested is put into the graph faithfully. -/
theorem request_faithful (unit : SourceUnit) (settings : Settings) (active : List DeclRef)
    (d : DeclRef) (owner : String) {a : Assembly} (ha : a.graph.IsFaithful unit) :
    ((request unit settings active d owner).run a).2.graph.IsFaithful unit :=
  ((invariant_sourced unit fun _ _ _ h => h.source).request (fun _ => build_yields) active d owner a
    ha).2

end Assembly

end InteropGraph
