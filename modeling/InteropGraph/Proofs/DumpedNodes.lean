import InteropGraph.Proofs.Graph.Members

/-!
# What a dump shows

`Graph.Refers` says in which ways the entities and types of a graph refer to each other, whether or
not there is something at the place that is referred to. A dump shows what is populated and can be
reached from the listed entities along such references, each entity and each type once and in the
order of places (`dump_shows_reachable`).
-/

namespace InteropGraph

/-- The places that an entity refers to. -/
inductive Entity.Refers (e : Entity) : Node → Prop
  | member {m : Members} {k : MemberList} {id : EntityId} (container : e.members? = some m)
      (listed : id ∈ m.list k) : e.Refers (.entity id)
  | protocol {m : Members} {id : EntityId} (container : e.members? = some m)
      (conformed : id ∈ m.protocols) : e.Refers (.entity id)
  | base {id : EntityId} (base : e.base? = some id) : e.Refers (.entity id)
  | extended {m : Members} {id : EntityId} (detail : e.detail = .category m id) :
      e.Refers (.entity id)
  | getter {id : EntityId} {setter : Option EntityId}
      (detail : e.detail = .property (some id) setter) : e.Refers (.entity id)
  | setter {getter : Option EntityId} {id : EntityId}
      (detail : e.detail = .property getter (some id)) : e.Refers (.entity id)
  | functionType {signature : List TypeId} {t : TypeId} (detail : e.detail = .function signature)
      (part : t ∈ signature) : e.Refers (.type t)
  | methodType {signature : List TypeId} {tokens : List String} {t : TypeId}
      (detail : e.detail = .method signature tokens) (part : t ∈ signature) : e.Refers (.type t)
  | fieldType {fields : List EntityField} {f : EntityField} (detail : e.detail = .struct fields)
      (field : f ∈ fields) : e.Refers (.type f.type)
  | valueType {t : TypeId} {value : Option VariableValue} (detail : e.detail = .variable t value) :
      e.Refers (.type t)

/-- The places that a type refers to. -/
inductive BridgeType.Refers : BridgeType → Node → Prop
  | conformed {protocols : List EntityId} {id : EntityId} (mem : id ∈ protocols) :
      Refers (.object protocols) (.entity id)
  | interface {id : EntityId} {protocols : List EntityId} {arguments : List TypeId} :
      Refers (.interface id protocols arguments) (.entity id)
  | qualifier {e id : EntityId} {protocols : List EntityId} {arguments : List TypeId}
      (mem : id ∈ protocols) : Refers (.interface e protocols arguments) (.entity id)
  | argument {e : EntityId} {t : TypeId} {protocols : List EntityId} {arguments : List TypeId}
      (mem : t ∈ arguments) : Refers (.interface e protocols arguments) (.type t)
  | pointee {t : TypeId} : Refers (.pointer t) (.type t)
  | blockPart {signature : List TypeId} {t : TypeId} (mem : t ∈ signature) :
      Refers (.block signature) (.type t)
  | functionPart {signature : List TypeId} {t : TypeId} (mem : t ∈ signature) :
      Refers (.functionPointer signature) (.type t)
  | element {t : TypeId} {size : UInt64} : Refers (.constantArray t size) (.type t)
  | openElement {t : TypeId} : Refers (.incompleteArray t) (.type t)
  | struct {id : EntityId} : Refers (.struct id) (.entity id)
  | enumeration {id : EntityId} : Refers (.enumeration id) (.entity id)

/-- A container refers to its members and its protocols. -/
theorem Members.mem_references_iff {m : Members} {n : Node} : n ∈ m.references ↔
    ∃ id, n = .entity id ∧ ((∃ k, id ∈ m.list k) ∨ id ∈ m.protocols) := by
  unfold references
  rw [List.mem_map]
  constructor
  · rintro ⟨id, hid, rfl⟩
    exact ⟨id, rfl, (List.mem_append.mp hid).imp_left mem_all_iff.mp⟩
  · rintro ⟨id, rfl, hid⟩
    exact ⟨id, List.mem_append.mpr (hid.imp_left mem_all_iff.mpr), rfl⟩

namespace Entity

/-- An entity refers to what it lists. -/
theorem refers_of_members {e : Entity} {m : Members} (hm : e.members? = some m) {n : Node}
    (hn : n ∈ m.references) : e.Refers n := by
  obtain ⟨id, rfl, ⟨k, hid⟩ | hid⟩ := Members.mem_references_iff.mp hn
  · exact .member hm hid
  · exact .protocol hm hid

theorem mem_references_option_iff {id? : Option EntityId} {n : Node} :
    n ∈ id?.toList.map Node.entity ↔ ∃ id, id? = some id ∧ n = .entity id := by
  rw [List.mem_map]
  exact exists_congr fun id => and_congr Option.mem_toList eq_comm

/-- What is listed as a reference is one. -/
theorem refers_of_mem_references {e : Entity} {detail : Detail} {n : Node}
    (hdetail : e.detail = detail) (hn : n ∈ detail.references) : e.Refers n := by
  cases detail with
  | struct fields =>
    obtain ⟨f, hf, rfl⟩ := List.mem_map.mp hn
    exact .fieldType hdetail hf
  | function signature =>
    obtain ⟨t, ht, rfl⟩ := List.mem_map.mp hn
    exact .functionType hdetail ht
  | «variable» t value =>
    obtain rfl := List.mem_singleton.mp hn
    exact .valueType hdetail
  | interface m base params =>
    rcases List.mem_append.mp hn with hn | hn
    · exact refers_of_members (by rw [members?, hdetail]) hn
    · obtain ⟨id, rfl, rfl⟩ := mem_references_option_iff.mp hn
      exact .base (by rw [base?, hdetail])
  | protocol m => exact refers_of_members (by rw [members?, hdetail]) hn
  | category m extended =>
    rcases List.mem_append.mp hn with hn | hn
    · exact refers_of_members (by rw [members?, hdetail]) hn
    · obtain rfl := List.mem_singleton.mp hn
      exact .extended hdetail
  | method signature tokens =>
    obtain ⟨t, ht, rfl⟩ := List.mem_map.mp hn
    exact .methodType hdetail ht
  | property getter setter =>
    rcases List.mem_append.mp hn with hn | hn
    · obtain ⟨id, rfl, rfl⟩ := mem_references_option_iff.mp hn
      exact .getter hdetail
    · obtain ⟨id, rfl, rfl⟩ := mem_references_option_iff.mp hn
      exact .setter hdetail
  | enumeration | enumConstant => cases hn

/-- Every reference is listed. -/
theorem mem_references_of_refers {e : Entity} {n : Node} (hn : e.Refers n) :
    n ∈ e.detail.references := by
  cases hn with
  | member container listed =>
    exact references_of_members? container
      (Members.mem_references_iff.mpr ⟨_, rfl, .inl ⟨_, listed⟩⟩)
  | protocol container conformed =>
    exact references_of_members? container (Members.mem_references_iff.mpr ⟨_, rfl, .inr conformed⟩)
  | base base =>
    unfold base? at base
    split at base
    next hdetail =>
      rw [hdetail, base]
      exact List.mem_append_right _ List.mem_cons_self
    next => cases base
  | extended detail =>
    rw [detail]
    exact List.mem_append_right _ List.mem_cons_self
  | getter detail =>
    rw [detail]
    exact List.mem_append_left _ List.mem_cons_self
  | setter detail =>
    rw [detail]
    exact List.mem_append_right _ List.mem_cons_self
  | functionType detail part =>
    rw [detail]
    exact List.mem_map_of_mem part
  | methodType detail part =>
    rw [detail]
    exact List.mem_map_of_mem part
  | fieldType detail field =>
    rw [detail]
    exact List.mem_map.mpr ⟨_, field, rfl⟩
  | valueType detail =>
    rw [detail]
    exact List.mem_cons_self

/-- The references that a search follows are those of the entity. -/
theorem mem_references_iff {e : Entity} {n : Node} : n ∈ e.detail.references ↔ e.Refers n :=
  ⟨refers_of_mem_references rfl, mem_references_of_refers⟩

end Entity

namespace BridgeType

/-- What is listed as a reference is one. -/
theorem refers_of_mem_references {type : BridgeType} {n : Node} (hn : n ∈ type.references) :
    type.Refers n := by
  cases type with
  | scalar | typeParameter | union => cases hn
  | object protocols =>
    obtain ⟨id, hid, rfl⟩ := List.mem_map.mp hn
    exact .conformed hid
  | interface e protocols arguments =>
    rcases List.mem_append.mp hn with hn | hn
    · rcases List.mem_cons.mp hn with rfl | hn
      · exact .interface
      · obtain ⟨id, hid, rfl⟩ := List.mem_map.mp hn
        exact .qualifier hid
    · obtain ⟨t, ht, rfl⟩ := List.mem_map.mp hn
      exact .argument ht
  | pointer t =>
    obtain rfl := List.mem_singleton.mp hn
    exact .pointee
  | constantArray t size =>
    obtain rfl := List.mem_singleton.mp hn
    exact .element
  | incompleteArray t =>
    obtain rfl := List.mem_singleton.mp hn
    exact .openElement
  | block signature =>
    obtain ⟨t, ht, rfl⟩ := List.mem_map.mp hn
    exact .blockPart ht
  | functionPointer signature =>
    obtain ⟨t, ht, rfl⟩ := List.mem_map.mp hn
    exact .functionPart ht
  | struct id =>
    obtain rfl := List.mem_singleton.mp hn
    exact .struct
  | enumeration id =>
    obtain rfl := List.mem_singleton.mp hn
    exact .enumeration

/-- Every reference is listed. -/
theorem mem_references_of_refers {type : BridgeType} {n : Node} (hn : type.Refers n) :
    n ∈ type.references := by
  cases hn with
  | conformed mem | blockPart mem | functionPart mem => exact List.mem_map_of_mem mem
  | interface => exact List.mem_append_left _ List.mem_cons_self
  | qualifier mem =>
    exact List.mem_append_left _ (List.mem_cons_of_mem _ (List.mem_map_of_mem mem))
  | argument mem => exact List.mem_append_right _ (List.mem_map_of_mem mem)
  | pointee | element | openElement | struct | enumeration => exact List.mem_cons_self

/-- The references that a search follows are those of the type. -/
theorem mem_references_iff {type : BridgeType} {n : Node} : n ∈ type.references ↔ type.Refers n :=
  ⟨refers_of_mem_references, mem_references_of_refers⟩

end BridgeType

namespace Graph

variable {g : Graph} {roots : List EntityId} {n m : Node}

/-- One node refers to another: the first is populated, and the second is a place that what is there
refers to. -/
inductive Refers (g : Graph) : Node → Node → Prop
  | entity {id : EntityId} {e : Entity} {n : Node} (populated : g.entity? id = some e)
      (refers : e.Refers n) : g.Refers (.entity id) n
  | type {t : TypeId} {type : BridgeType} {n : Node} (populated : g.type? t = some type)
      (refers : type.Refers n) : g.Refers (.type t) n

/-- The references that are followed are those that there are. -/
theorem refers_iff : g.Refers n m ↔ ∃ next, g.references? n = some next ∧ m ∈ next := by
  constructor
  · intro h
    cases h with
    | entity populated refers =>
      exact ⟨_, references?_entity populated, Entity.mem_references_iff.mpr refers⟩
    | type populated refers =>
      exact ⟨_, references?_type populated, BridgeType.mem_references_iff.mpr refers⟩
  · rintro ⟨next, hnext, hm⟩
    cases n with
    | entity id =>
      obtain ⟨e, he, rfl⟩ := Option.map_eq_some_iff.mp hnext
      exact .entity he (Entity.mem_references_iff.mp hm)
    | type t =>
      obtain ⟨type, htype, rfl⟩ := Option.map_eq_some_iff.mp hnext
      exact .type htype (BridgeType.mem_references_iff.mp hm)

/-- What can be reached is what exists and is connected to a root by references. Nothing is lost by
passing over places where there is nothing, since these refer to nothing. -/
theorem reaches_iff : g.Reaches roots n ↔ (∃ next, g.references? n = some next) ∧
    ∃ root ∈ roots, Relation.ReflTransGen g.Refers (.entity root) n := by
  constructor
  · intro h
    refine ⟨h.exists, ?_⟩
    induction h with
    | root listed found => exact ⟨_, listed, .refl⟩
    | step _ references mem found ih =>
      obtain ⟨root, hroot, hpath⟩ := ih
      exact ⟨root, hroot, hpath.tail (refers_iff.mpr ⟨_, references, mem⟩)⟩
  · rintro ⟨⟨next, hnext⟩, root, hroot, hpath⟩
    induction hpath generalizing next with
    | refl => exact .root hroot hnext
    | tail _ hrefers ih =>
      obtain ⟨next', hnext', hmem⟩ := refers_iff.mp hrefers
      exact .step (ih next' hnext') hnext' hmem hnext

/-! ### Dumps -/

variable {modules : Modules}

/-- Entities are dumped in the order of their places, so each of them once. -/
theorem pairwise_dump_entities :
    (g.dump modules).entities.Pairwise fun a b => a.1.index < b.1.index := by
  have hentities : g.entities.Pairwise fun a b => a.1.index < b.1.index := by
    refine List.Pairwise.filterMap _ ?_ List.pairwise_lt_range
    intro i j hlt a ha b hb
    obtain ⟨e, -, rfl⟩ := Option.map_eq_some_iff.mp ha
    obtain ⟨e', -, rfl⟩ := Option.map_eq_some_iff.mp hb
    exact hlt
  exact hentities.filter _

/-- Types are dumped in the order of their places, so each of them once. -/
theorem pairwise_dump_types :
    (g.dump modules).types.Pairwise fun a b => a.1.index < b.1.index := by
  refine List.Pairwise.filterMap _ ?_ List.pairwise_lt_range
  intro i j hlt a ha b hb
  rw [Option.ite_none_right_eq_some] at ha hb
  obtain ⟨-, ha⟩ := ha
  obtain ⟨-, hb⟩ := hb
  obtain ⟨type, -, rfl⟩ := Option.map_eq_some_iff.mp ha
  obtain ⟨type', -, rfl⟩ := Option.map_eq_some_iff.mp hb
  exact hlt

/-- **What a dump shows.** On every graph and for all modules a dump has the entities and the types
that are populated and connected to a listed entity by references, each of them once and in the
order of places. Every search for them ends, whichever pending node it takes next, and it only stops
when nothing is pending; the one that a dump makes is such a search, and any other sees the same. -/
theorem dump_shows_reachable (g : Graph) (modules : Modules) :
    (g.dump modules).modules = modules ∧
    ((g.dump modules).entities.Pairwise (fun a b => a.1.index < b.1.index) ∧
      ∀ id e, (id, e) ∈ (g.dump modules).entities ↔ g.entity? id = some e ∧
        ∃ root ∈ modules.ids, Relation.ReflTransGen g.Refers (.entity root) (.entity id)) ∧
    ((g.dump modules).types.Pairwise (fun a b => a.1.index < b.1.index) ∧
      ∀ t type, (t, type) ∈ (g.dump modules).types ↔ g.type? t = some type ∧
        ∃ root ∈ modules.ids, Relation.ReflTransGen g.Refers (.entity root) (.type t)) ∧
    WellFounded (fun s' s => g.SearchStep s s') ∧
    (∀ s, (∀ s', ¬g.SearchStep s s') → s.pending = []) ∧
    Relation.ReflTransGen g.SearchStep ⟨[], modules.ids.map .entity⟩
      ⟨g.reachable modules.ids, []⟩ ∧
    ∀ seen, Relation.ReflTransGen g.SearchStep ⟨[], modules.ids.map .entity⟩ ⟨seen, []⟩ →
      ∀ n, n ∈ seen ↔ n ∈ g.reachable modules.ids := by
  refine ⟨rfl, ⟨pairwise_dump_entities, fun id e => ?_⟩, ⟨pairwise_dump_types, fun t type => ?_⟩,
    g.wellFounded_searchStep, fun _ => pending_eq_nil_of_stopped, g.explore_searches [] _,
    fun seen hseen n => ?_⟩
  · rw [mem_dump_entities, reaches_iff, and_congr_right_iff]
    intro he
    exact and_iff_right ⟨_, references?_entity he⟩
  · rw [mem_dump_types, reaches_iff, and_congr_right_iff]
    intro htype
    exact and_iff_right ⟨_, references?_type htype⟩
  · rw [mem_iff_of_searches hseen, mem_reachable_iff]

end Graph

end InteropGraph
