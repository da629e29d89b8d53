import InteropGraph.Proofs.Assembly.Denotes

/-!
# What the entities of an assembly describe

`Describes unit a shape detail` says that an entity is made of what a declaration consists of: its
types are those that the declaration names, and it refers to the entities of the declarations that
are its dependencies, members and protocols. Hence an entity refers only to what is `Live`, and the
declaration depends only on what is ready.
-/

namespace InteropGraph.Assembly

variable {unit : SourceUnit} {a b : Assembly} {t : TypeRef} {id : TypeId}

/-! ### References -/

/-- A node that what has been made may refer to: the entity of a declaration that is ready, or a
type that stands for one of the source unit. -/
def Live (unit : SourceUnit) (a : Assembly) : Node → Prop
  | .entity id => ∃ d, a.answer? d = some (.ok id)
  | .type id => ∃ t, Denotes unit a t id

/-- Places of declarations may be referred to. -/
theorem PlacesOf.live {refs : List DeclRef} {ids : List EntityId} (h : PlacesOf a refs ids) :
    ∀ n ∈ ids.map Node.entity, Live unit a n := by
  intro n hn
  obtain ⟨id, hid, rfl⟩ := List.mem_map.mp hn
  obtain ⟨d, -, hd⟩ := h id hid
  exact ⟨d, hd⟩

/-- The parts of a signature are live, if each has something that it stands for. -/
theorem live_of_mem_zip {ts : List TypeRef} {ids : List TypeId} (hlen : ts.length = ids.length)
    (h : ∀ u j, (u, j) ∈ ts.zip ids → Denotes unit a u j) :
    ∀ n ∈ ids.map Node.type, Live unit a n := by
  intro n hn
  obtain ⟨j, hj, rfl⟩ := List.mem_map.mp hn
  obtain ⟨u, hu⟩ := List.exists_mem_zip_right hlen hj
  exact ⟨u, h u j hu⟩

/-- Types that denote others may be referred to. -/
theorem live_of_forall₂ {ts : List TypeRef} {ids : List TypeId}
    (h : List.Forall₂ (Denotes unit a) ts ids) : ∀ n ∈ ids.map Node.type, Live unit a n := by
  obtain ⟨hlen, hzip⟩ := List.forall₂_iff_zip.mp h
  exact live_of_mem_zip hlen fun _ _ => hzip

/-- A type that stands for one of the source unit refers only to what is live. -/
theorem Denotes.live_references (h : Denotes unit a t id) {type : BridgeType}
    (htype : a.graph.type? id = some type) : ∀ n ∈ type.references, Live unit a n := by
  have hinj {type' : BridgeType} {id : TypeId} {type : BridgeType}
      (h' : a.graph.type? id = some type') (h : a.graph.type? id = some type) : type' = type :=
    Option.some.inj (h'.symm.trans h)
  have hsingle {x : Node} (hx : Live unit a x) : ∀ n ∈ [x], Live unit a n := by
    intro n hn
    rwa [List.mem_singleton.mp hn]
  induction h generalizing type with
  | primitive _ _ type' =>
    obtain rfl := hinj type' htype
    exact nofun
  | object _ listed type' =>
    obtain rfl := hinj type' htype
    exact listed.live
  | @objectPointer t id d protocols arguments i ids parts _ entity listed length_eq part type' =>
    obtain rfl := hinj type' htype
    intro n hn
    rcases List.mem_append.mp hn with hn | hn
    · rcases List.mem_cons.mp hn with rfl | hn
      · exact ⟨d, entity⟩
      · exact listed.live n hn
    · refine live_of_mem_zip length_eq part n ?_
      by_cases hclosed : closedArguments a.graph parts
      · rwa [if_pos hclosed] at hn
      · rw [if_neg hclosed] at hn
        cases hn
  | pointer _ part type' =>
    obtain rfl := hinj type' htype
    exact hsingle ⟨_, part⟩
  | block _ length_eq part type' =>
    obtain rfl := hinj type' htype
    exact live_of_mem_zip length_eq part
  | functionPointer _ length_eq part type' =>
    obtain rfl := hinj type' htype
    exact live_of_mem_zip length_eq part
  | constantArray _ part type' =>
    obtain rfl := hinj type' htype
    exact hsingle ⟨_, part⟩
  | incompleteArray _ part type' =>
    obtain rfl := hinj type' htype
    exact hsingle ⟨_, part⟩
  | union _ _ type' =>
    obtain rfl := hinj type' htype
    exact nofun
  | record _ _ entity type' =>
    obtain rfl := hinj type' htype
    exact hsingle ⟨_, entity⟩
  | enumeration _ entity type' =>
    obtain rfl := hinj type' htype
    exact hsingle ⟨_, entity⟩
  | typeParameter _ type' =>
    obtain rfl := hinj type' htype
    exact nofun
  | standalone _ _ type' =>
    obtain rfl := hinj type' htype
    exact nofun
  -- a synonym has a copy of the underlying type, and refers to what that refers to
  | synonym _ _ _ underlying type' ih =>
    obtain rfl := hinj type' htype
    exact ih underlying

/-! ### Entities -/

/-- The entity of an optional dependency, if there is one. -/
abbrev Answers (a : Assembly) : Option DeclRef → Option EntityId → Prop :=
  Option.Rel fun d id => a.answer? d = some (.ok id)

/-- The members of a container are made from those that are declared. -/
structure Gathers (a : Assembly) (refs : MemberRefs) (m : Members) : Prop where
  members : PlacesOf a (refs.methods ++ refs.properties) m.all
  protocols : PlacesOf a refs.protocols m.protocols

/-- An entity is made of what a declaration consists of. -/
inductive Describes (unit : SourceUnit) (a : Assembly) : Shape → Detail → Prop where
  | function {callable signature}
      (types : List.Forall₂ (Denotes unit a)
        (callable.returns :: callable.params.map Parameter.type) signature) :
      Describes unit a (.function callable) (.function signature)
  | record {isUnion fields entityFields}
      (types : List.Forall₂ (fun f e => e.name = f.name ∧ Denotes unit a f.type e.type) fields
        entityFields) :
      Describes unit a (.record isUnion fields) (.struct entityFields)
  | global {t id initializer value} (type : Denotes unit a t id) :
      Describes unit a (.variable t initializer) (.variable id value)
  | enumeration {integerType constants common fields} :
      Describes unit a (.enumeration integerType constants) (.enumeration common fields)
  | enumConstant {constant value} :
      Describes unit a (.enumConstant constant) (.enumConstant value)
  | interface {superclass refs typeParameters members baseId} (base : Answers a superclass baseId)
      (gathers : Gathers a refs members) :
      Describes unit a (.interface superclass refs typeParameters)
        (.interface members baseId typeParameters)
  | protocol {refs members} (gathers : Gathers a refs members) :
      Describes unit a (.protocol refs) (.protocol members)
  | category {d refs members extended} (entity : a.answer? d = some (.ok extended))
      (gathers : Gathers a refs members) :
      Describes unit a (.category d refs) (.category members extended)
  | method {callable isStatic isAccessor isOptional signature tokens}
      (types : List.Forall₂ (Denotes unit a)
        (callable.returns :: callable.params.map Parameter.type) signature) :
      Describes unit a (.method callable isStatic isAccessor isOptional) (.method signature tokens)
  | property {getterRef setterRef isStatic isOptional getterId setterId}
      (getter : Answers a getterRef getterId) (setter : Answers a setterRef setterId) :
      Describes unit a (.property getterRef setterRef isStatic isOptional)
        (.property getterId setterId)

theorem Answers.mono (hab : Grows a b) {d : Option DeclRef} {id : Option EntityId}
    (h : Answers a d id) : Answers b d id := by
  cases h with
  | none => exact .none
  | some h => exact .some (hab.ready h)

/-- What has been answered is ready. -/
theorem Answers.ready {d : Option DeclRef} {id : Option EntityId} (h : Answers a d id) :
    ∀ x ∈ d.toList, Ready a x := by
  cases h with
  | none => exact nofun
  | some h =>
    intro x hx
    obtain rfl := List.mem_singleton.mp hx
    exact ⟨_, h⟩

theorem Answers.live {d : Option DeclRef} {id : Option EntityId} (h : Answers a d id) :
    ∀ n ∈ id.toList.map Node.entity, Live unit a n := by
  cases h with
  | none => exact nofun
  | some h =>
    intro n hn
    obtain rfl := List.mem_singleton.mp hn
    exact ⟨_, h⟩

theorem Gathers.mono (hab : Grows a b) {refs : MemberRefs} {m : Members} (h : Gathers a refs m) :
    Gathers b refs m := ⟨h.members.mono hab, h.protocols.mono hab⟩

/-- Members that are made from declared ones may be referred to. -/
theorem Gathers.live {refs : MemberRefs} {m : Members} (h : Gathers a refs m) :
    ∀ n ∈ m.references, Live unit a n := by
  intro n hn
  unfold Members.references at hn
  rw [List.map_append] at hn
  rcases List.mem_append.mp hn with hn | hn
  · exact h.members.live n hn
  · exact h.protocols.live n hn

/-- Types that denote something resolve with what is ready. -/
theorem resolves_of_forall₂ {ts : List TypeRef} {ids : List TypeId}
    (h : List.Forall₂ (Denotes unit a) ts ids) : ∀ t ∈ ts, Resolves unit (Ready a) t := by
  obtain ⟨hlen, hzip⟩ := List.forall₂_iff_zip.mp h
  intro t ht
  obtain ⟨id, hid⟩ := List.exists_mem_zip_left hlen ht
  exact (hzip hid).resolves

theorem denotes_of_fields {fields : List Field} {entityFields : List EntityField}
    (h : List.Forall₂ (fun f e => e.name = f.name ∧ Denotes unit a f.type e.type) fields
      entityFields) :
    List.Forall₂ (Denotes unit a) (fields.map Field.type) (entityFields.map EntityField.type) := by
  rw [List.forall₂_map_left_iff, List.forall₂_map_right_iff]
  exact h.imp fun _ _ hfield => hfield.2

namespace Describes

variable {shape : Shape} {detail : Detail}

/-- An entity that is described by a declaration is so for ever. -/
theorem mono (hab : Grows a b) (h : Describes unit a shape detail) :
    Describes unit b shape detail := by
  cases h with
  | function types => exact .function (types.imp fun _ _ h => h.mono hab)
  | record types => exact .record (types.imp fun _ _ h => ⟨h.1, h.2.mono hab⟩)
  | global type => exact .global (type.mono hab)
  | enumeration => exact .enumeration
  | enumConstant => exact .enumConstant
  | interface base gathers => exact .interface (base.mono hab) (gathers.mono hab)
  | protocol gathers => exact .protocol (gathers.mono hab)
  | category entity gathers => exact .category (hab.ready entity) (gathers.mono hab)
  | method types => exact .method (types.imp fun _ _ h => h.mono hab)
  | property getter setter => exact .property (getter.mono hab) (setter.mono hab)

/-- What a declaration needs is ready when its entity is made. -/
theorem ready_dependencies (h : Describes unit a shape detail) :
    ∀ d ∈ shape.dependencies, Ready a d := by
  cases h with
  | function | record | global | enumeration | enumConstant | protocol | method => exact nofun
  | interface base _ => exact base.ready
  | category entity _ =>
    intro d hd
    obtain rfl := List.mem_singleton.mp hd
    exact ⟨_, entity⟩
  | property getter setter =>
    intro d hd
    rcases List.mem_append.mp hd with hd | hd
    · exact getter.ready d hd
    · exact setter.ready d hd

/-- The types that a declaration names resolve when its entity is made. -/
theorem resolves_types (h : Describes unit a shape detail) :
    ∀ t ∈ shape.typesNamed, Resolves unit (Ready a) t := by
  cases h with
  | function types => exact resolves_of_forall₂ types
  | record types => exact resolves_of_forall₂ (denotes_of_fields types)
  | global type =>
    intro t ht
    obtain rfl := List.mem_singleton.mp ht
    exact type.resolves
  | method types => exact resolves_of_forall₂ types
  | enumeration | enumConstant | interface | protocol | category | property => exact nofun

/-- An entity refers only to what is live. -/
theorem live_references (h : Describes unit a shape detail) :
    ∀ n ∈ detail.references, Live unit a n := by
  cases h with
  | function types => exact live_of_forall₂ types
  | record types =>
    have hlive := live_of_forall₂ (denotes_of_fields types)
    rwa [List.map_map] at hlive
  | global type =>
    intro n hn
    obtain rfl := List.mem_singleton.mp hn
    exact ⟨_, type⟩
  | enumeration | enumConstant => exact nofun
  | interface base gathers =>
    intro n hn
    rcases List.mem_append.mp hn with hn | hn
    · exact gathers.live n hn
    · exact base.live n hn
  | protocol gathers => exact gathers.live
  | category entity gathers =>
    intro n hn
    rcases List.mem_append.mp hn with hn | hn
    · exact gathers.live n hn
    · obtain rfl := List.mem_singleton.mp hn
      exact ⟨_, entity⟩
  | method types => exact live_of_forall₂ types
  | property getter setter =>
    intro n hn
    rcases List.mem_append.mp hn with hn | hn
    · exact getter.live n hn
    · exact setter.live n hn

end Describes

end InteropGraph.Assembly
