import InteropGraph.Graph.Reach
import InteropGraph.Proofs.Assembly.Constructible
import InteropGraph.Proofs.Assembly.Extends
import InteropGraph.Proofs.Lists

/-!
# What the types and entities of an assembly stand for

`Denotes unit a t id` says that the type at `id` is what the source unit has at `t`, down to the
entities that it names; `Describes` says the same of an entity and a declaration. Both are about
what is ready and what is in the arena of types. That is not only kept by extensions: a type may be
resolved a second time while it is resolved, and what was made with the first place stays as good as
it was. So `Grows` is the order in which they are monotone.
-/

namespace InteropGraph.Assembly

/-- `d` has an entity, which may still be under construction. -/
def Ready (a : Assembly) (d : DeclRef) : Prop :=
  ∃ id, a.answer? d = some (.ok id)

/-- Each of the places is that of one of the declarations. -/
def PlacesOf (a : Assembly) (refs : List DeclRef) (ids : List EntityId) : Prop :=
  ∀ id ∈ ids, ∃ d ∈ refs, a.answer? d = some (.ok id)

/-- Nothing that is ready, typed or complete in `a` is lost in `b`. -/
structure Grows (a b : Assembly) : Prop where
  ready : ∀ {d id}, a.answer? d = some (.ok id) → b.answer? d = some (.ok id)
  type : ∀ {id type}, a.graph.type? id = some type → b.graph.type? id = some type
  entity : ∀ {id e}, a.graph.entity? id = some e → b.graph.entity? id = some e

variable {unit : SourceUnit} {a b c : Assembly} {d : DeclRef} {t : TypeRef} {id : TypeId}

namespace Grows

theorem refl (a : Assembly) : Grows a a := ⟨fun h => h, fun h => h, fun h => h⟩

theorem trans (hab : Grows a b) (hbc : Grows b c) : Grows a c where
  ready h := hbc.ready (hab.ready h)
  type h := hbc.type (hab.type h)
  entity h := hbc.entity (hab.entity h)

/-- What extends an assembly loses nothing. -/
theorem of_extends (h : Extends unit a b) : Grows a b := ⟨h.answer, h.type, h.entity⟩

theorem addType (a : Assembly) (t : TypeRef) (type : BridgeType) :
    Grows a ((Assembly.addType t type).run a).2 where
  ready h := h
  type h := Graph.type?_addType_of_some h type
  entity h := h

/-- A slot that is new takes no other one's place. -/
theorem begin (hd : a.answer? d = none) : Grows a (a.begin d).2 where
  ready {x id} hx := by
    have hne : x ≠ d := by
      rintro rfl
      exact absurd hx (by simp [hd])
    rw [answer?_begin, if_neg hne, hx]
  type h := h
  entity h := by rw [entity?_begin, h]

/-- The slot of a construction is vacant until it is completed. -/
theorem complete (h : Extends unit (a.begin d).2 b) (e : Entity) :
    Grows b (b.complete (a.begin d).1 e) where
  ready hx := hx
  type hx := hx
  entity {id e'} hx := by
    -- the slot of `d` is vacant, so no entity is overwritten
    have hne : id ≠ (a.begin d).1 := by
      rintro rfl
      unfold Graph.entity? at hx
      rw [slot_eq_none h] at hx
      cases hx
    rw [entity?_complete h, if_neg hne, hx]

end Grows

/-- Places are not given away. -/
theorem PlacesOf.mono (hab : Grows a b) {refs : List DeclRef} {ids : List EntityId}
    (h : PlacesOf a refs ids) : PlacesOf b refs ids := by
  intro id hid
  obtain ⟨d, hd, hr⟩ := h id hid
  exact ⟨d, hd, hab.ready hr⟩

/-! ### Types -/

/-- The type at a place stands for a type of the source unit. -/
inductive Denotes (unit : SourceUnit) (a : Assembly) : TypeRef → TypeId → Prop where
  | primitive {t id p s} (node : unit.type? t = some (.primitive p))
      (scalar : ofPrimitive p = .ok s)
      (type : a.graph.type? id = some (.scalar s)) : Denotes unit a t id
  | object {t id protocols ids} (node : unit.type? t = some (.object protocols))
      (listed : PlacesOf a protocols ids)
      (type : a.graph.type? id = some (.object ids)) : Denotes unit a t id
  | objectPointer {t id d protocols arguments i ids parts}
      (node : unit.type? t = some (.objectPointer d protocols arguments))
      (entity : a.answer? d = some (.ok i))
      (listed : PlacesOf a protocols ids)
      (length_eq : arguments.length = parts.length)
      (part : ∀ u j, (u, j) ∈ arguments.zip parts → Denotes unit a u j)
      (type : a.graph.type? id =
        some (.interface i ids (if closedArguments a.graph parts then parts else []))) :
      Denotes unit a t id
  | pointer {t id u j} (node : unit.type? t = some (.pointer u)) (part : Denotes unit a u j)
      (type : a.graph.type? id = some (.pointer j)) : Denotes unit a t id
  | block {t id returns params parts} (node : unit.type? t = some (.block returns params))
      (length_eq : (returns :: params).length = parts.length)
      (part : ∀ u j, (u, j) ∈ (returns :: params).zip parts → Denotes unit a u j)
      (type : a.graph.type? id = some (.block parts)) : Denotes unit a t id
  | functionPointer {t id returns params parts}
      (node : unit.type? t = some (.functionPointer returns params))
      (length_eq : (returns :: params).length = parts.length)
      (part : ∀ u j, (u, j) ∈ (returns :: params).zip parts → Denotes unit a u j)
      (type : a.graph.type? id = some (.functionPointer parts)) : Denotes unit a t id
  | constantArray {t id u size j} (node : unit.type? t = some (.constantArray u size))
      (part : Denotes unit a u j) (type : a.graph.type? id = some (.constantArray j size)) :
      Denotes unit a t id
  | incompleteArray {t id u j} (node : unit.type? t = some (.incompleteArray u))
      (part : Denotes unit a u j) (type : a.graph.type? id = some (.incompleteArray j)) :
      Denotes unit a t id
  | union {t id d name} (node : unit.type? t = some (.record d))
      (union : unionName? unit d = some name)
      (type : a.graph.type? id = some (.union name)) : Denotes unit a t id
  | record {t id d i} (node : unit.type? t = some (.record d)) (record : unionName? unit d = none)
      (entity : a.answer? d = some (.ok i)) (type : a.graph.type? id = some (.struct i)) :
      Denotes unit a t id
  | enumeration {t id d i} (node : unit.type? t = some (.enumeration d))
      (entity : a.answer? d = some (.ok i)) (type : a.graph.type? id = some (.enumeration i)) :
      Denotes unit a t id
  | typeParameter {t id name} (node : unit.type? t = some (.typeParameter name))
      (type : a.graph.type? id = some (.typeParameter name)) : Denotes unit a t id
  | standalone {t id name u s} (node : unit.type? t = some (.alias name u))
      (scalar : namedType? name = some s) (type : a.graph.type? id = some (.scalar s)) :
      Denotes unit a t id
  | synonym {t id name u j type'} (node : unit.type? t = some (.alias name u))
      (plain : namedType? name = none) (part : Denotes unit a u j)
      (underlying : a.graph.type? j = some type') (type : a.graph.type? id = some type') :
      Denotes unit a t id

/-- Whether arguments are closed does not change while the arena grows. -/
theorem closedArguments_congr {g g' : Graph} {ids : List TypeId}
    (h : ∀ id ∈ ids, g'.type? id = g.type? id) :
    closedArguments g' ids = closedArguments g ids := by
  unfold closedArguments
  rw [Bool.eq_iff_iff, List.all_eq_true, List.all_eq_true]
  constructor
  · intro hall id hid
    rw [← h id hid]
    exact hall id hid
  · intro hall id hid
    rw [h id hid]
    exact hall id hid

/-- The names that stand for no type by themselves are those that are looked through. -/
theorem namedType?_eq_none_iff {name : String} :
    namedType? name = none ↔ name ∉ TypeNode.standaloneNames := by
  unfold namedType? TypeNode.standaloneNames
  split <;> simp_all

/-- A name that stands for a type of its own hides what it is defined as. -/
theorem parts_alias_of_some {name : String} {s : Scalar} (h : namedType? name = some s)
    (u : TypeRef) : (TypeNode.alias name u).parts = [] := by
  have hname : name ∈ TypeNode.standaloneNames := by
    by_contra hno
    rw [namedType?_eq_none_iff.mpr hno] at h
    cases h
  rw [TypeNode.parts, if_pos hname]

theorem parts_alias_of_none {name : String} (h : namedType? name = none) (u : TypeRef) :
    (TypeNode.alias name u).parts = [u] := by
  rw [TypeNode.parts, if_neg (namedType?_eq_none_iff.mp h)]

/-- A primitive type has a scalar exactly if it is supported. -/
theorem ofPrimitive_isOk_iff {p : Primitive} :
    (∃ s, ofPrimitive p = .ok s) ↔ p.isSupported = true := by
  cases p <;> simp [ofPrimitive, Primitive.isSupported]

namespace Denotes

/-- What denotes a type is in the arena. -/
theorem exists_type (h : Denotes unit a t id) : ∃ type, a.graph.type? id = some type := by
  cases h <;> exact ⟨_, ‹_›⟩

/-- What denotes a type does so for ever. -/
theorem mono (hab : Grows a b) (h : Denotes unit a t id) : Denotes unit b t id := by
  induction h with
  | primitive node scalar type => exact .primitive node scalar (hab.type type)
  | object node listed type => exact .object node (listed.mono hab) (hab.type type)
  | @objectPointer t id d protocols arguments i ids parts node entity listed length_eq part type
      ih =>
    -- whether the arguments are closed is decided by types that have a place already
    have hsame : ∀ j ∈ parts, b.graph.type? j = a.graph.type? j := by
      intro j hj
      obtain ⟨u, hu⟩ := List.exists_mem_zip_right length_eq hj
      obtain ⟨type, htype⟩ := (part u j hu).exists_type
      rw [htype, hab.type htype]
    refine .objectPointer node (hab.ready entity) (listed.mono hab) length_eq ih ?_
    rw [closedArguments_congr hsame]
    exact hab.type type
  | pointer node _ type ih => exact .pointer node ih (hab.type type)
  | block node length_eq _ type ih => exact .block node length_eq ih (hab.type type)
  | functionPointer node length_eq _ type ih =>
    exact .functionPointer node length_eq ih (hab.type type)
  | constantArray node _ type ih => exact .constantArray node ih (hab.type type)
  | incompleteArray node _ type ih => exact .incompleteArray node ih (hab.type type)
  | union node union type => exact .union node union (hab.type type)
  | record node record entity type =>
    exact .record node record (hab.ready entity) (hab.type type)
  | enumeration node entity type => exact .enumeration node (hab.ready entity) (hab.type type)
  | typeParameter node type => exact .typeParameter node (hab.type type)
  | standalone node scalar type => exact .standalone node scalar (hab.type type)
  | synonym node plain _ underlying type ih =>
    exact .synonym node plain ih (hab.type underlying) (hab.type type)

/-- What a type denotes resolves with the declarations that are ready. -/
theorem resolves (h : Denotes unit a t id) : Resolves unit (Ready a) t := by
  -- in each case the parts and the dependencies of the node are those of the constructor
  induction h with
  | primitive node scalar _ =>
    exact .intro node (ofPrimitive_isOk_iff.mp ⟨_, scalar⟩) nofun nofun
  | object node _ _ => exact .intro node rfl nofun nofun
  | objectPointer node entity _ length_eq _ _ ih =>
    refine .intro node rfl (fun d hd => ?_) (fun u hu => ?_)
    · obtain rfl := List.mem_singleton.mp hd
      exact ⟨_, entity⟩
    · obtain ⟨j, hj⟩ := List.exists_mem_zip_left length_eq hu
      exact ih u j hj
  | pointer node _ _ ih =>
    refine .intro node rfl nofun fun u hu => ?_
    obtain rfl := List.mem_singleton.mp hu
    exact ih
  | block node length_eq _ _ ih =>
    refine .intro node rfl nofun fun u hu => ?_
    obtain ⟨j, hj⟩ := List.exists_mem_zip_left length_eq hu
    exact ih u j hj
  | functionPointer node length_eq _ _ ih =>
    refine .intro node rfl nofun fun u hu => ?_
    obtain ⟨j, hj⟩ := List.exists_mem_zip_left length_eq hu
    exact ih u j hj
  | constantArray node _ _ ih =>
    refine .intro node rfl nofun fun u hu => ?_
    obtain rfl := List.mem_singleton.mp hu
    exact ih
  | incompleteArray node _ _ ih =>
    refine .intro node rfl nofun fun u hu => ?_
    obtain rfl := List.mem_singleton.mp hu
    exact ih
  | @union t id d name node union _ =>
    refine .intro node rfl (fun x hx => ?_) nofun
    simp only [TypeNode.dependencies, union, Option.isSome_some, if_true] at hx
    cases hx
  | @record t id d i node record entity _ =>
    refine .intro node rfl (fun x hx => ?_) nofun
    simp only [TypeNode.dependencies, record, Option.isSome_none] at hx
    obtain rfl := List.mem_singleton.mp hx
    exact ⟨i, entity⟩
  | enumeration node entity _ =>
    refine .intro node rfl (fun x hx => ?_) nofun
    obtain rfl := List.mem_singleton.mp hx
    exact ⟨_, entity⟩
  | typeParameter node _ => exact .intro node rfl nofun nofun
  | @standalone t id name u s node scalar _ =>
    refine .intro node rfl nofun fun x hx => ?_
    rw [parts_alias_of_some scalar] at hx
    cases hx
  | @synonym t id name u j type' node plain _ _ _ ih =>
    refine .intro node rfl nofun fun x hx => ?_
    rw [parts_alias_of_none plain] at hx
    obtain rfl := List.mem_singleton.mp hx
    exact ih

end Denotes

end InteropGraph.Assembly
