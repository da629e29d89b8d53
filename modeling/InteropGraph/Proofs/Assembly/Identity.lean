import InteropGraph.Proofs.Assembly.Growth
import InteropGraph.Proofs.Assembly.Origins
import InteropGraph.Proofs.Pass.Retains

/-!
# Types as identities

A type keeps the place that it gets, unless it is resolved again while it is being resolved. This
happens to types that are mentioned by themselves through declarations (`Reentrant`), since a
construction does not know which types are being resolved around it; the second place then takes
the memory from the first. For all others the memory and the entities agree: whatever is ready
carries the places that are known (`Coherent`).

The argument is one of frames. A step changes the places of those types only that are mentioned
(`Framed`), so the resolution of a type that does not mention itself cannot give it a place halfway.
-/

namespace InteropGraph.Assembly

variable {α β : Type} {unit : SourceUnit} {settings : Settings} {entity : Request}

/-- A type that is mentioned by itself. -/
def Reentrant (unit : SourceUnit) (t : TypeRef) : Prop :=
  Relation.TransGen (Mentions unit) (.type t) (.type t)

/-! ### Frames -/

/-- Outside of `S` the types have the given places. -/
def Framed (S : Item → Prop) (places : TypeRef → Option TypeId) (a : Assembly) : Prop :=
  ∀ t, ¬S (.type t) → a.typeId? t = places t

/-- A set of items that holds what its members mention. -/
def ClosedUnderMentions (unit : SourceUnit) (S : Item → Prop) : Prop :=
  ∀ x y, S x → Mentions unit x y → S y

/-- The requests for the declarations in `S` leave the places of all types outside of `S`. -/
def RequestsFramed (S : Item → Prop) (places : TypeRef → Option TypeId) (entity : Request) :
    Prop :=
  ∀ d owner, S (.decl d) → Agrees (Framed S places) EntityId (entity d owner) (entity d owner)

section Framed

variable {S : Item → Prop} {places : TypeRef → Option TypeId}

/-- Conversion touches what its type mentions, and nothing else. -/
theorem convert_framed {t : TypeRef} {node : TypeNode} (hnode : unit.type? t = some node)
    (hS : ∀ y, Mentions unit (.type t) y → S y) (hentity : RequestsFramed S places entity)
    {type : TypeRef → Assemble TypeId}
    (htype : ∀ u ∈ node.parts, Agrees (Framed S places) TypeId (type u) (type u)) :
    Agrees (Framed S places) BridgeType (convert unit entity type node)
      (convert unit entity type node) :=
  (Agrees.composes _).convert
    (fun d hd owner => hentity d owner (hS _ (.requestOfType hnode hd))) htype

/-- Resolving a type touches what the type mentions, directly or not. -/
theorem resolve_framed (hS : ClosedUnderMentions unit S) (hentity : RequestsFramed S places entity)
    (resolving : List TypeRef) (t : TypeRef) (ht : S (.type t)) :
    Agrees (Framed S places) TypeId (resolve unit entity resolving t)
      (resolve unit entity resolving t) := by
  refine .resolve_within (S := fun t => S (.type t))
    (fun t node ht hnode u hu => hS _ _ ht (.part hnode hu))
    (fun t node ht hnode d hd owner => hentity d owner (hS _ _ ht (.requestOfType hnode hd)))
    (fun _ t _ type _ b ht _ _ _ hb u hu => ?_) resolving t ht
  -- the type that gets a place is in `S`
  have hne : u ≠ t := by
    rintro rfl
    exact hu ht
  rw [typeId?_addType, if_neg hne]
  exact hb u hu

/-- So does requesting a declaration. -/
theorem request_framed (hS : ClosedUnderMentions unit S) (active : List DeclRef) :
    RequestsFramed S places (request unit settings active) := by
  intro d owner hd
  induction active, d, owner using request.induct unit with
  | case1 active d owner ih =>
    refine fun a ha => ⟨rfl, ?_⟩
    obtain ⟨r, -, hrun⟩ | ⟨-, -, hrun⟩ | ⟨decl, -, -, -, hrun⟩ |
      ⟨decl, hanswer, hdecl, hactive, hrun⟩ := request_cases unit settings active d owner a
    · rw [hrun]
      exact ha
    · rw [hrun]
      exact ha
    · rw [hrun]
      exact ha
    · have hinside : RequestsFramed S places (request unit settings (d :: active)) :=
        fun x owner hx => ih decl hdecl hactive x owner hx
      have hrelated : ShapeRelated (Agrees (Framed S places)) unit
          (request unit settings (d :: active)) (request unit settings (d :: active)) decl.shape :=
        ⟨fun x hx owner => hinside x owner (hS _ _ hd (.request hdecl hx)),
          fun u hu => resolve_framed hS hinside [] u (hS _ _ hd (.named hdecl hu))⟩
      have hbuild : Agrees (Framed S places) Entity
          (build unit settings (request unit settings (d :: active)) d decl owner)
          (build unit settings (request unit settings (d :: active)) d decl owner) :=
        (Agrees.composes _).build hrelated owner
      have hframed := (hbuild (a.begin d).2 ha).2
      have hext : Extends unit (a.begin d).2 ((build unit settings
          (request unit settings (d :: active)) d decl owner).run (a.begin d).2).2 :=
        build_extending (request_extending unit settings (d :: active)) d decl owner _
      rw [hrun, run_construct]
      rcases hbuilt : (build unit settings (request unit settings (d :: active)) d decl
        owner).run (a.begin d).2 with ⟨f | e, b⟩
      · -- a construction that fails leaves the places as they were
        rw [hbuilt] at hext
        intro t ht
        exact ((abandon_restores hext hanswer f).typeId t).trans (ha t ht)
      · rw [hbuilt] at hframed
        exact hframed

/-- The conversion of a type that does not mention itself gives it no place. -/
theorem typeId?_convert {t : TypeRef} {node : TypeNode} (ht : ¬Reentrant unit t)
    (hnode : unit.type? t = some node) (active : List DeclRef) (resolving : List TypeRef)
    (a : Assembly) :
    ((convert unit (request unit settings active)
      (resolve unit (request unit settings active) resolving) node).run a).2.typeId? t =
        a.typeId? t := by
  -- the frame is what the type mentions, directly or not
  let S : Item → Prop := fun y => Relation.TransGen (Mentions unit) (.type t) y
  have hS : ClosedUnderMentions unit S := fun _ _ hx hxy => hx.tail hxy
  have hentity : RequestsFramed S a.typeId? (request unit settings active) :=
    request_framed hS active
  have hconvert := convert_framed hnode (fun y hy => .single hy) hentity
    fun u hu => resolve_framed hS hentity resolving u (.single (.part hnode hu))
  exact (hconvert a fun _ _ => rfl).2 t ht

end Framed

/-! ### What is built carries what is known -/

/-- The entity carries the place that is known of each type that its declaration names. -/
def CarriesKnown (a : Assembly) (decl : Declaration) (e : Entity) : Prop :=
  List.Forall₂ (fun t id => a.typeId? t = some id) decl.shape.typesNamed e.detail.types

/-- A type that has been resolved is remembered with its place. -/
theorem typeId?_of_resolve {resolving : List TypeRef} {t : TypeRef} {id : TypeId}
    {a b : Assembly} (h : (resolve unit entity resolving t).run a = (.ok id, b)) :
    b.typeId? t = some id := by
  obtain ⟨known, hknown, hrun⟩ | ⟨-, -, hrun⟩ | ⟨node, -, -, -, hrun⟩ | ⟨node, -, -, -, hrun⟩ :=
    resolve_cases unit entity resolving t a
  · cases hrun.symm.trans h
    exact hknown
  · cases hrun.symm.trans h
  · cases hrun.symm.trans h
  · obtain ⟨type, c, -, hadd⟩ := of_run_bind (hrun.symm.trans h)
    rw [run_addType] at hadd
    cases hadd
    exact (typeId?_addType c t t type).trans (if_pos rfl)

/-- What each of some steps has come to still holds when all of them have been taken. -/
theorem forall₂_of_mapM {f : α → Assemble β} {P : α → β → Assembly → Prop}
    (hext : ∀ x, Extending unit (f x))
    (hmono : ∀ x y a b, Extends unit a b → P x y a → P x y b)
    (hf : ∀ x a y b, (f x).run a = (.ok y, b) → P x y b) {l : List α} {a b : Assembly}
    {ys : List β} (h : (l.mapM f).run a = (.ok ys, b)) :
    List.Forall₂ (fun x y => P x y b) l ys := by
  induction l generalizing a ys with
  | nil =>
    cases h
    exact .nil
  | cons x l ih =>
    rw [List.mapM_cons] at h
    obtain ⟨y, c, hx, hrest⟩ := of_run_bind h
    obtain ⟨ys, c', hl, hpure⟩ := of_run_bind hrest
    cases hpure
    have hlater : Extends unit c ((l.mapM f).run c).2 :=
      ((extending_composes unit).mapM fun x _ => ⟨rfl, hext x⟩).2 c
    rw [hl] at hlater
    exact .cons (hmono x y c _ hlater (hf x a y c hx)) (ih hl)

section Build

variable (hentity : ∀ d owner, Extending unit (entity d owner))
include hentity

/-- The places in a signature are remembered for the types that it names. -/
theorem signature_known {callable : Callable} {ids : List TypeId} {a b : Assembly}
    (h : (signature unit entity callable).run a = (.ok ids, b)) :
    List.Forall₂ (fun t id => b.typeId? t = some id)
      (callable.returns :: callable.params.map Parameter.type) ids :=
  forall₂_of_mapM (P := fun t id b => b.typeId? t = some id) (resolve_extending hentity [])
    (fun _ _ _ _ hab h => hab.typeId h) (fun _ _ _ _ h => typeId?_of_resolve h) h

/-- The places in the fields of a record are remembered for their types. -/
theorem fields_known {fields : List Field} {es : List EntityField} {a b : Assembly}
    (h : (fields.mapM fun f : Field => do
      let type ← dependingOn ("field '" ++ f.name ++ "'") (resolve unit entity [] f.type)
      return (⟨f.name, type⟩ : EntityField)).run a = (.ok es, b)) :
    List.Forall₂ (fun t id => b.typeId? t = some id) (fields.map Field.type)
      (es.map EntityField.type) := by
  rw [List.forall₂_map_left_iff, List.forall₂_map_right_iff]
  refine forall₂_of_mapM (P := fun (f : Field) (e : EntityField) b =>
    b.typeId? f.type = some e.type) (fun f => ?_)
      (fun _ _ _ _ (hab : Extends unit _ _) h => hab.typeId h) (fun f a e b hf => ?_) h
  · have hcomposes := extending_composes unit
    exact (hcomposes.bind (hcomposes.dependingOn _ ⟨rfl, resolve_extending hentity [] f.type⟩)
      fun _ => hcomposes.pure _).2
  · obtain ⟨id, c, hid, hpure⟩ := of_run_bind hf
    cases hpure
    rw [run_dependingOn] at hid
    rcases hrun : (resolve unit entity [] f.type).run a with ⟨_ | v, c⟩
    · rw [hrun] at hid
      cases hid
    · rw [hrun] at hid
      cases hid
      exact typeId?_of_resolve hrun

omit hentity in
/-- Entities of the other kinds carry no types. -/
theorem types_eq_nil {e : Entity} (h : e.kind ∉ [.struct, .function, .variable, .method]) :
    e.detail.types = [] := by
  unfold Entity.kind at h
  unfold Detail.types
  cases hdetail : e.detail <;> simp [hdetail, Detail.kind] at h ⊢

/-- At the end of a construction its entity carries what is known. -/
theorem buildShape_known {decl : Declaration} {owner : String} {e : Entity} {a b : Assembly}
    (h : (buildShape unit settings entity decl owner).run a = (.ok e, b)) :
    CarriesKnown b decl e := by
  have hkind := (buildShape_yields decl owner a e (by rw [h])).2
  unfold CarriesKnown
  unfold buildShape at h
  cases hshape : decl.shape with
  | function callable =>
    rw [hshape] at h
    obtain ⟨_, c, -, h⟩ := of_run_bind h
    obtain ⟨ids, c', hids, hpure⟩ := of_run_bind h
    cases hpure
    exact signature_known hentity hids
  | record isUnion fields =>
    rw [hshape] at h
    cases isUnion with
    | true =>
      obtain ⟨_, c, hthrow, -⟩ := of_run_bind h
      cases hthrow
    | false =>
      obtain ⟨es, c, hes, hpure⟩ := of_run_bind h
      cases hpure
      exact fields_known hentity hes
  | «variable» type initializer =>
    rw [hshape] at h
    obtain ⟨_, c, -, h⟩ := of_run_bind h
    obtain ⟨id, c', hid, hpure⟩ := of_run_bind h
    cases hpure
    exact .cons (typeId?_of_resolve hid) .nil
  | method callable _ _ _ =>
    rw [hshape] at h
    obtain ⟨_, c, -, h⟩ := of_run_bind h
    obtain ⟨ids, c', hids, hpure⟩ := of_run_bind h
    cases hpure
    exact signature_known hentity hids
  | enumeration | enumConstant | interface | protocol | category | property =>
    rw [hshape] at hkind
    rw [types_eq_nil (by rw [hkind, Shape.entityKind]; decide)]
    exact .nil

/-- An entity carries the places that are remembered when it has been built. -/
theorem build_known {d : DeclRef} {decl : Declaration} {owner : String} {e : Entity}
    {a b : Assembly} (h : (build unit settings entity d decl owner).run a = (.ok e, b)) :
    CarriesKnown b decl e := by
  obtain ⟨_, c, -, h⟩ := of_run_bind h
  obtain ⟨e', c', he, hpure⟩ := of_run_bind h
  cases hpure
  have hknown : CarriesKnown b decl e' := buildShape_known hentity he
  exact hknown

end Build

/-! ### Coherence -/

/-- What is ready has a slot, and it carries the places that are known of its types. -/
structure Coherent (unit : SourceUnit) (a : Assembly) : Prop where
  inRange : ∀ {d id}, a.answer? d = some (.ok id) → id.index < a.graph.slots.size
  known : ∀ {d id e decl}, a.answer? d = some (.ok id) → a.graph.entity? id = some e →
    e.source = some d → unit.declaration? d = some decl →
      ∀ t i, (t, i) ∈ decl.shape.typesNamed.zip e.detail.types → ¬Reentrant unit t →
        a.typeId? t = some i

namespace Coherent

variable {a b : Assembly} {d : DeclRef}

theorem empty (unit : SourceUnit) : Coherent unit .empty where
  inRange h := nomatch h
  known h := nomatch h

/-- A slot that is vacant carries nothing. -/
theorem begin (h : Coherent unit a) (d : DeclRef) : Coherent unit (a.begin d).2 where
  inRange {x id} hx := by
    rw [answer?_begin] at hx
    rw [size_begin]
    by_cases hxd : x = d
    · rw [if_pos hxd] at hx
      cases hx
      exact Nat.lt_succ_self _
    · rw [if_neg hxd] at hx
      exact Nat.lt_succ_of_lt (h.inRange hx)
  known {x id e decl} hx he := by
    rw [answer?_begin] at hx
    rw [entity?_begin] at he
    by_cases hxd : x = d
    · -- the slot of `d` is new
      rw [if_pos hxd] at hx
      cases hx
      exact absurd (Graph.index_lt_of_entity? he) (Nat.lt_irrefl _)
    · rw [if_neg hxd] at hx
      exact h.known hx he

/-- A type may get a place if it had none, or if it mentions itself. -/
theorem addType (h : Coherent unit a) {t : TypeRef} (type : BridgeType)
    (ht : ¬Reentrant unit t → a.typeId? t = none) :
    Coherent unit ((Assembly.addType t type).run a).2 where
  inRange := h.inRange
  known hx he hs hdecl u i hu hreentrant := by
    have hknown := h.known hx he hs hdecl u i hu hreentrant
    have hne : u ≠ t := by
      rintro rfl
      cases (ht hreentrant).symm.trans hknown
    rw [typeId?_addType, if_neg hne, hknown]

/-- An entity that carries what is remembered may be put into its slot. -/
theorem complete (hext : Extends unit (a.begin d).2 b) (h : Coherent unit b) {decl : Declaration}
    (hdecl : unit.declaration? d = some decl) {e : Entity} (hsource : e.source = some d)
    (he : CarriesKnown b decl e) : Coherent unit (b.complete (a.begin d).1 e) where
  inRange hx := by
    show _ < (b.graph.slots.setIfInBounds _ _).size
    rw [Array.size_setIfInBounds]
    exact h.inRange hx
  known {x id e' decl'} hx he' hs hdecl' t i hti hreentrant := by
    rw [entity?_complete hext] at he'
    by_cases hid : id = (a.begin d).1
    · rw [if_pos hid] at he'
      cases he'
      obtain rfl : d = x := Option.some.inj (hsource.symm.trans hs)
      obtain rfl : decl = decl' := Option.some.inj (hdecl.symm.trans hdecl')
      exact (List.forall₂_iff_zip.mp he).2 hti
    · rw [if_neg hid] at he'
      exact h.known hx he' hs hdecl' t i hti hreentrant

/-- A construction that fails takes back the places that it has given, and what carries them. -/
theorem abandon (hext : Extends unit (a.begin d).2 b) (hd : a.answer? d = none)
    (h : Coherent unit a) (f : Failure) : Coherent unit (b.abandon a.mark d f) where
  inRange hx := by
    have hbefore := h.inRange (((abandon_restores hext hd f).ready _ _).mp hx)
    have hsize := hext.size_le
    rw [size_begin] at hsize
    exact Nat.lt_of_lt_of_le hbefore (Nat.le_of_succ_le hsize)
  known {x id e decl} hx he hs hdecl t i hti hreentrant := by
    have hready := ((abandon_restores hext hd f).ready _ _).mp hx
    have hlt := h.inRange hready
    have hold : a.graph.entity? id = some e := by
      rw [← he]
      refine (Graph.entity?_congr ?_).symm
      show b.graph.slots[id.index]? = _
      rw [← slot_begin hlt d]
      exact hext.slot (by rw [size_begin]; exact Nat.lt_succ_of_lt hlt)
    rw [(abandon_restores hext hd f).typeId]
    exact h.known hready hold hs hdecl t i hti hreentrant

/-- A construction keeps the places of the types, those of a failed one included: they are
forgotten. -/
theorem construct (ha : Coherent unit a) (hd : a.answer? d = none) {decl : Declaration}
    (hdecl : unit.declaration? d = some decl) {steps : Assemble Entity}
    (hextending : Extending unit steps) (hsteps : Agrees (Coherent unit) Entity steps steps)
    (hyields : Yields (Entity.IsOf d decl) steps)
    (hknown : ∀ b e c, steps.run b = (.ok e, c) → CarriesKnown c decl e) :
    Coherent unit ((Assembly.construct d steps).run a).2 := by
  have hext := hextending (a.begin d).2
  have hb := (hsteps _ (ha.begin d)).2
  rw [run_construct]
  rcases hrun : steps.run (a.begin d).2 with ⟨f | e, b⟩
  · rw [hrun] at hext
    exact ha.abandon hext hd f
  · rw [hrun] at hext hb
    have hof := hyields _ e (by rw [hrun])
    exact .complete hext hb hdecl hof.source (hknown _ e b hrun)

end Coherent

/-- Requests keep an assembly coherent. -/
theorem request_coherent (active : List DeclRef) (d : DeclRef) (owner : String) :
    Agrees (Coherent unit) EntityId (request unit settings active d owner)
      (request unit settings active d owner) := by
  refine .request (fun a ha => ⟨ha.inRange, ha.known⟩)
    (fun active d decl owner a hd hdecl ih ha => ?_) active d owner
  have hentity := request_extending unit settings (d :: active)
  refine ha.construct hd hdecl (build_extending hentity d decl owner) ?_
    (build_yields d decl owner) fun b e c => build_known hentity
  refine (Agrees.composes _).build ⟨fun x _ => ih x, fun t _ => ?_⟩ owner
  -- a type that does not mention itself still has no place when it has been converted
  refine Agrees.resolve_of (fun resolving u node type b c hu hnode hrun hc => ?_) ih [] t
  refine hc.addType type fun hreentrant => ?_
  rw [← hu, ← typeId?_convert hreentrant hnode (d :: active) (u :: resolving) b, hrun]

end InteropGraph.Assembly
