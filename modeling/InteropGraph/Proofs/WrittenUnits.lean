import InteropGraph.Proofs.Json
import InteropGraph.Proofs.Version
import InteropGraph.Source.Json

/-!
# Units are read as they are written

`SourceUnit.toJson` loses nothing (`SourceUnit.read_written_unit`). Each kind of value is read by
itself, and the parts of a declaration's kind are found beside its own: the two have no name in
common, and what is left out is what a missing part stands for.
-/

namespace InteropGraph

open Json

/-! ### References and versions -/

theorem DeclRef.ofJson?_toJson (d : DeclRef) : ofJson? d.toJson = some d := by
  unfold ofJson? toJson
  rw [uint32?_ofNat]
  rfl

theorem TypeRef.ofJson?_toJson (t : TypeRef) : ofJson? t.toJson = some t := by
  unfold ofJson? toJson
  rw [uint32?_ofNat]
  rfl

theorem Version.ofJson?_toJson (v : Version) : ofJson? v.toJson = some v := by
  show (parse v.display).toOption = some v
  rw [parse_display]
  rfl

theorem orNull?_declRef (d : Option DeclRef) :
    orNull? DeclRef.ofJson? (.ofOption DeclRef.toJson d) = some d :=
  orNull?_ofOption fun d _ => ⟨d.ofJson?_toJson, nofun⟩

theorem orNull?_typeRef (t : Option TypeRef) :
    orNull? TypeRef.ofJson? (.ofOption TypeRef.toJson t) = some t :=
  orNull?_ofOption fun t _ => ⟨t.ofJson?_toJson, nofun⟩

theorem orNull?_version (v : Option Version) :
    orNull? Version.ofJson? (.ofOption Version.toJson v) = some v :=
  orNull?_ofOption fun v _ => ⟨v.ofJson?_toJson, nofun⟩

theorem listOf?_declRef (ds : List DeclRef) :
    listOf? DeclRef.ofJson? (.ofList DeclRef.toJson ds) = some ds :=
  listOf?_ofList fun d _ => d.ofJson?_toJson

theorem listOf?_typeRef (ts : List TypeRef) :
    listOf? TypeRef.ofJson? (.ofList TypeRef.toJson ts) = some ts :=
  listOf?_ofList fun t _ => t.ofJson?_toJson

/-! ### Parts of declarations -/

/-- Parts that are unknown are written as null, which is read as unknown. -/
theorem Availability.ofJson?_toJson (a : Availability) : ofJson? a.toJson = some a := by
  unfold ofJson? toJson
  rw [members?_object (by simp)]
  simp [orNull?_version, text?, bool?]

theorem Attributes.ofJson?_toJson (a : Attributes) : ofJson? a.toJson = some a := by
  unfold ofJson? toJson
  rw [members?_object (by simp)]
  simp [bool?]

theorem Parameter.ofJson?_toJson (p : Parameter) : ofJson? p.toJson = some p := by
  unfold ofJson? toJson
  rw [members?_object (by simp)]
  simp [text?, TypeRef.ofJson?_toJson]

theorem Field.ofJson?_toJson (f : Field) : ofJson? f.toJson = some f := by
  unfold ofJson? toJson
  rw [members?_object (by simp)]
  simp [text?, TypeRef.ofJson?_toJson]

theorem BitConstant.nodup_members (c : BitConstant) : (c.members.map Prod.fst).Nodup := by
  simp [members]

theorem BitConstant.ofMembers?_members (c : BitConstant) : ofMembers? c.members = some c := by
  unfold ofMembers? members
  simp [uint64?_ofNat, uint32?_ofNat, bool?]

theorem BitConstant.ofJson?_object (c : BitConstant) : ofJson? (.object c.members) = some c := by
  unfold ofJson?
  rw [members?_object c.nodup_members, Option.bind_some, ofMembers?_members]

/-! ### Tagged values -/

theorem kindOf?_text {names : List String} {numbered : Bool} {kind : String} (h : kind ∈ names) :
    kindOf? names numbered (.text kind) = some kind :=
  if_pos h

/-- The tag is found, and taken away from the other parts. -/
theorem untag?_tagged {names : List String} {numbered : Bool} {kind : String} {m : Json.Members}
    (hkind : kind ∈ names) (hm : (("kind", Json.text kind) :: m).map Prod.fst |>.Nodup) :
    untag? names numbered (tagged kind m) = some (kind, .object m) := by
  have hrest : (("kind", Json.text kind) :: m).filter (·.1 ≠ "kind") = m := by
    rw [List.filter_cons_of_neg (by simp), List.filter_eq_self]
    intro p hp
    have hne : p.1 ≠ "kind" := by
      intro h
      exact (List.nodup_cons.mp hm).1 (List.mem_map.mpr ⟨p, hp, h⟩)
    exact decide_eq_true hne
  have htag : Members.required (("kind", Json.text kind) :: m) "kind" (kindOf? names numbered) =
      some kind :=
    Members.required_of_lookup List.lookup_cons_self (kindOf?_text hkind)
  unfold untag? tagged
  simp only [objectMembers?_object hm, hrest, htag, Option.bind_eq_bind, Option.bind_some]
  rfl

/-! ### Initializers -/

/-- Every double of an initial value is finite. -/
def Initializer.IsFinite : Initializer → Prop
  | .float x => x.isFinite = true
  | _ => True

/-- A double that is not finite has no number to be written as. -/
theorem Initializer.ofJson?_toJson {i : Initializer} (h : i.IsFinite) :
    ofJson? i.toJson = some i := by
  unfold ofJson?
  cases i with
  | integer c =>
    rw [toJson, untag?_tagged (by decide) (by simp [BitConstant.members])]
    simp [BitConstant.ofJson?_object]
  | float x =>
    rw [toJson, untag?_tagged (by decide) (by simp)]
    simp [members?_object, float?_ofFloat h]
  | struct | complex | vector | nonConstant =>
    rw [toJson, untag?_tagged (by decide) (by simp)]
    simp [members?_object]

/-! ### Shapes -/

/-- What is called is read among the other members of its declaration. -/
theorem Callable.ofMembers?_of_has {m : Json.Members} {c : Callable} (h : m.Has c.members) :
    ofMembers? m = some c := by
  simp only [members, Members.has_cons] at h
  obtain ⟨hreturns, hparams, hvariadic, -⟩ := h
  have hread : listOf? Parameter.ofJson? (.ofList Parameter.toJson c.params) = some c.params :=
    listOf?_ofList fun p _ => p.ofJson?_toJson
  unfold ofMembers?
  simp [Members.required, Members.optional, hreturns, hparams, hvariadic, hread, bool?,
    TypeRef.ofJson?_toJson]

/-- The members of a container are read among the other members of its declaration. -/
theorem MemberRefs.ofMembers?_of_has {m : Json.Members} {r : MemberRefs} (h : m.Has r.members) :
    ofMembers? m = some r := by
  simp only [members, Members.has_cons] at h
  obtain ⟨hprotocols, hmethods, hproperties, -⟩ := h
  unfold ofMembers?
  simp [Members.optional, hprotocols, hmethods, hproperties, listOf?_declRef]

/-- Every double of a declaration is finite. -/
def Shape.IsFinite : Shape → Prop
  | .variable _ (some i) => i.IsFinite
  | _ => True

/-- The kind that is written is one that the reader knows. -/
theorem Shape.kind_mem_kinds (shape : Shape) : shape.kind ∈ kinds := by
  cases shape <;> simp [kind, kinds]

/-- The parts of a kind are found in any object that has them. -/
theorem Shape.ofKind?_of_has {m : Json.Members} {shape : Shape} (hm : (m.map Prod.fst).Nodup)
    (h : m.Has shape.members) (hfinite : shape.IsFinite) :
    ofKind? shape.kind (.object m) = some shape := by
  cases shape with
  | function c =>
    simp [kind, ofKind?, objectMembers?_object hm, Callable.ofMembers?_of_has h]
  | record isUnion fields =>
    simp only [members, Members.has_cons] at h
    obtain ⟨hunion, hfields, -⟩ := h
    have hread : listOf? Field.ofJson? (.ofList Field.toJson fields) = some fields :=
      listOf?_ofList fun f _ => f.ofJson?_toJson
    simp [kind, ofKind?, objectMembers?_object hm, Members.optional, hunion, hfields, hread, bool?]
  | «variable» type initializer =>
    simp only [members, Members.has_cons] at h
    obtain ⟨htype, hinitializer, -⟩ := h
    have hread : orNull? Initializer.ofJson? (.ofOption Initializer.toJson initializer) =
        some initializer := by
      refine orNull?_ofOption fun i hi => ⟨?_, by cases i <;> nofun⟩
      cases hi
      exact Initializer.ofJson?_toJson hfinite
    simp [kind, ofKind?, objectMembers?_object hm, Members.required, Members.optional, htype,
      hinitializer, hread, TypeRef.ofJson?_toJson]
  | enumeration integerType constants =>
    simp only [members, Members.has_cons] at h
    obtain ⟨hinteger, hconstants, -⟩ := h
    simp [kind, ofKind?, objectMembers?_object hm, Members.optional, hinteger, hconstants,
      orNull?_typeRef, listOf?_declRef]
  | enumConstant value =>
    simp only [members, Members.has_cons] at h
    obtain ⟨hvalue, -⟩ := h
    simp [kind, ofKind?, objectMembers?_object hm, Members.required, hvalue, BitConstant.toJson,
      BitConstant.ofJson?_object]
  | interface superclass refs typeParameters =>
    simp only [members, List.cons_append, Members.has_cons, Members.has_append] at h
    obtain ⟨hsuperclass, hrefs, htypes, -⟩ := h
    have hread : listOf? text? (.ofList Json.text typeParameters) = some typeParameters :=
      listOf?_ofList fun _ _ => rfl
    simp [kind, ofKind?, objectMembers?_object hm, Members.optional, hsuperclass, htypes, hread,
      MemberRefs.ofMembers?_of_has hrefs, orNull?_declRef]
  | protocol refs =>
    simp [kind, ofKind?, objectMembers?_object hm, MemberRefs.ofMembers?_of_has h]
  | category target refs =>
    simp only [members, Members.has_cons] at h
    obtain ⟨htarget, hrefs⟩ := h
    simp [kind, ofKind?, objectMembers?_object hm, Members.required, htarget,
      MemberRefs.ofMembers?_of_has hrefs, DeclRef.ofJson?_toJson]
  | method callable isStatic isAccessor isOptional =>
    simp only [members, List.cons_append, Members.has_cons, Members.has_append] at h
    obtain ⟨hstatic, hcallable, haccessor, hoptional, -⟩ := h
    simp [kind, ofKind?, objectMembers?_object hm, Members.optional, hstatic, haccessor, hoptional,
      Callable.ofMembers?_of_has hcallable, bool?]
  | property getter setter isStatic isOptional =>
    simp only [members, Members.has_cons] at h
    obtain ⟨hgetter, hsetter, hstatic, hoptional, -⟩ := h
    simp [kind, ofKind?, objectMembers?_object hm, Members.optional, hgetter, hsetter, hstatic,
      hoptional, orNull?_declRef, bool?]

/-! ### Declarations -/

/-- A declaration's own parts and those of its kind have different names. -/
theorem Declaration.nodup_parts (shape : Shape) :
    (parts ++ "kind" :: shape.members.map Prod.fst).Nodup := by
  cases shape <;> simp [parts, Shape.members, Callable.members, MemberRefs.members]

/-- A part of the declaration is not looked for among those of its kind. -/
theorem Declaration.lookup_members (name : String) (h : name ∈ parts) (shape : Shape) :
    shape.members.lookup name = none := by
  obtain ⟨-, -, hdisjoint⟩ := List.nodup_append.mp (nodup_parts shape)
  rw [List.lookup_eq_none_iff]
  intro p hp
  have hne : name ≠ p.1 :=
    hdisjoint name h p.1 (List.mem_cons_of_mem _ (List.mem_map_of_mem hp))
  exact bne_iff_ne.mpr hne

/-- A declaration is read as it was written, with its shape beside it. -/
theorem Declaration.ofJson?_toJson {d : Declaration} (h : d.shape.IsFinite) :
    ofJson? d.toJson = some d := by
  obtain ⟨m, hm⟩ : ∃ m : Json.Members, d.toJson = .object m := ⟨_, rfl⟩
  have hparts := Json.object.inj hm
  have hkeys : (m.map Prod.fst).Nodup := by
    refine (nodup_parts d.shape).sublist ?_
    rw [← hparts]
    cases d.runtimeName <;> by_cases ha : d.availability = [] <;> simp [parts, ha]
  -- the two parts that may be left out
  have hruntime : m.optional "runtime_name" (orNull? text?) none = some d.runtimeName := by
    have hlookup : m.lookup "runtime_name" = d.runtimeName.map Json.text := by
      have hrest := lookup_members "runtime_name" (by decide) d.shape
      rw [← hparts]
      cases d.runtimeName <;> by_cases ha : d.availability = [] <;>
        simp [-List.lookup_eq_none_iff, List.lookup_cons, ha, hrest]
    unfold Members.optional
    rw [hlookup]
    cases d.runtimeName <;> rfl
  have havailability : m.optional "availability" (listOf? Availability.ofJson?) [] =
      some d.availability := by
    have hread : listOf? Availability.ofJson? (.ofList Availability.toJson d.availability) =
        some d.availability :=
      listOf?_ofList fun a _ => a.ofJson?_toJson
    by_cases ha : d.availability = []
    · have hlookup : m.lookup "availability" = none := by
        have hrest := lookup_members "availability" (by decide) d.shape
        rw [← hparts]
        cases d.runtimeName <;> simp [-List.lookup_eq_none_iff, List.lookup_cons, ha, hrest]
      rw [Members.optional_of_missing hlookup, ha]
    · have hlookup : m.lookup "availability" =
          some (.ofList Availability.toJson d.availability) := by
        rw [← hparts]
        cases d.runtimeName <;> simp [List.lookup_cons, ha]
      exact Members.optional_of_lookup hlookup hread []
  -- the parts that are always there
  have hhas : ∀ parts, parts = m → m.Has parts := by
    rintro _ rfl
    exact Members.has_self hkeys
  have hwritten := hhas _ hparts
  simp only [Members.has_append, Members.has_cons] at hwritten
  obtain ⟨⟨⟨⟨hname, hmodule, -⟩, -⟩, -⟩, hattributes, hkind, hshape⟩ := hwritten
  have hattributes : m.optional "attributes" Attributes.ofJson? .none = some d.attributes :=
    Members.optional_of_lookup hattributes d.attributes.ofJson?_toJson .none
  have hmodule : m.optional "module" text? "" = some d.module := by
    unfold Members.optional
    rw [hmodule]
    rfl
  rw [hm]
  unfold ofJson?
  simp [objectMembers?_object hkeys, Members.required, hname, text?, hmodule, hruntime,
    havailability, hattributes, hkind, kindOf?_text d.shape.kind_mem_kinds,
    Shape.ofKind?_of_has hkeys hshape h]

/-! ### Types -/

/-- No two primitive types have one kind. -/
theorem Primitive.ofKind?_kind (p : Primitive) : ofKind? p.kind = some p := by
  cases p <;> rfl

theorem TypeNode.kind_mem_kinds (p : Primitive) : p.kind ∈ kinds := by
  cases p <;> decide

theorem Primitive.ofKind?_eq_none {kind : String} (h : kind ∉ all.map Primitive.kind) :
    ofKind? kind = none := by
  refine List.find?_eq_none.mpr fun p hp hkind => h ?_
  rw [← of_decide_eq_true hkind]
  exact List.mem_map_of_mem hp

/-- A type is read as it was written, by its kind. -/
theorem TypeNode.ofJson?_toJson (t : TypeNode) : ofJson? t.toJson = some t := by
  unfold ofJson?
  cases t with
  | primitive p =>
    rw [toJson, untag?_tagged (kind_mem_kinds p) (by simp)]
    simp [ofKind?, Primitive.ofKind?_kind, members?_object]
  | object | objectPointer | pointer | block | functionPointer | constantArray | incompleteArray
  | record | enumeration | «alias» | typeParameter =>
    -- none of these kinds is that of a type without parts
    rw [toJson, untag?_tagged (by decide) (by simp)]
    simp (disch := decide) only [Option.bind_eq_bind, Option.bind_some, ofKind?,
      Primitive.ofKind?_eq_none]
    simp [members?_object, text?, uint64?_ofNat, DeclRef.ofJson?_toJson, TypeRef.ofJson?_toJson,
      listOf?_declRef, listOf?_typeRef]

/-! ### Units -/

/-- Every double in a unit is finite. -/
def SourceUnit.IsFinite (unit : SourceUnit) : Prop :=
  ∀ d ∈ unit.declarations, d.shape.IsFinite

/-- **Units survive being written.** A unit whose doubles are finite is read as it was written. -/
theorem SourceUnit.read_written_unit (unit : SourceUnit) (h : unit.IsFinite) :
    ofJson? unit.toJson = some unit := by
  have hdeclarations : listOf? Declaration.ofJson?
      (.ofList Declaration.toJson unit.declarations.toList) = some unit.declarations.toList :=
    listOf?_ofList fun d hd => Declaration.ofJson?_toJson (h d (Array.mem_def.mpr hd))
  have htypes : listOf? TypeNode.ofJson? (.ofList TypeNode.toJson unit.types.toList) =
      some unit.types.toList :=
    listOf?_ofList fun t _ => t.ofJson?_toJson
  unfold ofJson? toJson
  rw [members?_object (by simp)]
  simp [hdeclarations, htypes]

/-- A variable that starts with a half. -/
def SourceUnit.oneHalf : SourceUnit :=
  ⟨#[⟨"half", "M", some "_half", [⟨"ios", some ⟨some 13, none, some 1⟩, none, none, false⟩], .none,
    .variable ⟨0⟩ (some (.float 0.5))⟩], #[.primitive .double]⟩

/-- The unit comes back with everything, the double included. -/
theorem SourceUnit.read_written_oneHalf :
    oneHalf.IsFinite ∧ ofJson? oneHalf.toJson = some oneHalf := by
  have hfinite : oneHalf.IsFinite := by
    intro d hd
    obtain rfl := List.mem_singleton.mp (Array.mem_def.mp hd)
    show (0.5 : Float).isFinite = true
    decide
  exact ⟨hfinite, oneHalf.read_written_unit hfinite⟩

end InteropGraph
