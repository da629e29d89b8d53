import InteropGraph.Proofs.Assembly.Gathered
import InteropGraph.Proofs.Assembly.Types
import InteropGraph.Proofs.Lists

/-!
# What the construction of entities assures

Given that requests keep the assembly sound and fail only for what is not constructible, an entity
that is built is complete, and a declaration whose entity cannot be built is not admissible together
with the constructible declarations. What fails among members and protocols does not count: those
are left out.
-/

namespace InteropGraph.Assembly

variable {unit : SourceUnit} {settings : Settings} {active : List DeclRef} {entity : Request}
  {a : Assembly}

/-! ### Checks of a declaration by itself -/

/-- What is variadic has to end with a null. -/
theorem variadicFlags_isOk_iff {decl : Declaration} {variadic : Bool} :
    (∃ flags, variadicFlags decl variadic = .ok flags) ↔
      (variadic = true → decl.attributes.sentinel = true) := by
  cases variadic with
  | false => simp [variadicFlags]
  | true => cases hs : decl.attributes.sentinel <;> simp [variadicFlags, hs]

/-- A variable may have no initializer, or one whose value can be told. -/
theorem initialValue_isOk_iff {name : String} {initializer : Option Initializer} :
    (∃ v, initialValue name initializer = .ok v) ↔
      ∀ i ∈ initializer, i.isSupported = true := by
  rcases initializer with _ | i
  · simp [initialValue]
  · cases i <;> simp [initialValue, Initializer.isSupported]

/-- What is read of a constant is the name and the value that it is declared with. -/
theorem enumConstant_eq_ok_iff {name : String} {d : DeclRef} {r : String × BitConstant} :
    enumConstant unit name d = .ok r ↔ ∃ decl, unit.declaration? d = some decl ∧
      decl.shape = .enumConstant r.2 ∧ decl.name = r.1 := by
  unfold enumConstant
  cases hdecl : unit.declaration? d with
  | none => simp
  | some decl => cases hshape : decl.shape <;> simp [hshape, Prod.ext_iff, and_comm]

/-- The constants of an enumeration can be read if each of them is one. -/
theorem constants_isOk_iff {name : String} {constants : List DeclRef} :
    (∃ cs, constants.mapM (enumConstant unit name) = .ok cs) ↔
      ∀ d ∈ constants, ∃ decl value, unit.declaration? d = some decl ∧
        decl.shape = .enumConstant value := by
  rw [List.isOk_mapM_iff]
  refine forall₂_congr fun d _ => ⟨?_, ?_⟩
  · rintro ⟨r, hr⟩
    obtain ⟨decl, hdecl, hshape, -⟩ := enumConstant_eq_ok_iff.mp hr
    exact ⟨decl, r.2, hdecl, hshape⟩
  · rintro ⟨decl, value, hdecl, hshape⟩
    exact ⟨(decl.name, value), enumConstant_eq_ok_iff.mpr ⟨decl, hdecl, hshape, rfl⟩⟩

/-! ### Members -/

/-- Soundness says of what is ready that it is complete or under way. -/
theorem Sound.filled (h : Sound unit settings active a) : Filled active a := by
  intro d id hd
  refine (h.made hd).imp_right ?_
  rintro ⟨_, e, he, -⟩
  exact ⟨e, he⟩

section Parts

variable (hentity : EntityAssured unit settings active entity)
include hentity

/-- Members that fail are left out, so that gathering them never does. -/
theorem gatherMembers_gathers (ha : Sound unit settings active a) (refs : MemberRefs)
    (owner : String) {E : Prop} :
    Assures (Sound unit settings active) (gatherMembers entity refs owner) a
      (fun m b => Gathers b refs m) E := by
  have h := gatherMembers_assures (E := E) (fun _ hb => hb.filled)
    (fun d owner b hb => ⟨_, hentity d owner b hb⟩) ha refs owner
  exact h.weaken (fun _ _ _ _ hm => hm.gathers) id

/-! ### Entities -/

/-- A signature has a type for each one that is named, in order, and fails only with one of them. -/
theorem signature_assures (ha : Sound unit settings active a) (callable : Callable) :
    Assures (Sound unit settings active) (signature unit entity callable) a
      (fun ids b => List.Forall₂ (Denotes unit b)
        (callable.returns :: callable.params.map Parameter.type) ids)
      (¬∀ t ∈ callable.returns :: callable.params.map Parameter.type,
        Resolves unit (Constructible unit settings) t) :=
  .mapM (P := fun t id b => Denotes unit b t id) (fun _ _ _ _ hbc h => h.mono hbc)
    (fun t _ b _ hb => resolve_assures hentity [] t nofun b hb) ha

/-- Nothing is asked where nothing is referred to. -/
theorem optionalDependency_assures (ha : Sound unit settings active a) (owner : String)
    (d : Option DeclRef) :
    Assures (Sound unit settings active) (optionalDependency unit entity owner d) a
      (fun id b => Answers b d id) (¬∀ x ∈ d.toList, Constructible unit settings x) := by
  cases d with
  | none => exact .pure ha .none
  | some d =>
    refine ((dependency_assures hentity ha d owner).orElse fun h hall => ?_).map
      fun id b hid => .some hid
    exact h (hall d (List.mem_singleton.mpr rfl))

/-- Fields have the names and the types that are declared, in order. -/
theorem fields_assures (ha : Sound unit settings active a) (fields : List Field) :
    Assures (Sound unit settings active)
      (fields.mapM fun f => do
        let type ← dependingOn ("field '" ++ f.name ++ "'") (resolve unit entity [] f.type)
        return (⟨f.name, type⟩ : EntityField)) a
      (fun es b => List.Forall₂ (fun f e => e.name = f.name ∧ Denotes unit b f.type e.type)
        fields es)
      (¬∀ f ∈ fields, Resolves unit (Constructible unit settings) f.type) := by
  refine .mapM
    (P := fun (f : Field) (e : EntityField) b => e.name = f.name ∧ Denotes unit b f.type e.type)
    (R := fun f => Resolves unit (Constructible unit settings) f.type)
    (fun _ _ _ _ hbc h => ⟨h.1, h.2.mono hbc⟩) (fun f _ b _ hb => ?_) ha
  exact ((resolve_assures hentity [] f.type nofun b hb).dependingOn _).bind
    fun id c _ hc hid => .pure hc ⟨rfl, hid⟩

omit hentity

/-- `step` builds what describes `decl`, and fails only if that is not admissible together with the
constructible declarations. -/
def BuildAssured (unit : SourceUnit) (settings : Settings) (active : List DeclRef)
    (decl : Declaration) (step : Assemble Entity) : Prop :=
  ∀ a, Sound unit settings active a → Assures (Sound unit settings active) step a
    (fun e b => decl.shape.IsWellFormed unit decl.attributes ∧
      Describes unit b decl.shape e.detail)
    (¬Admissible unit settings (Constructible unit settings) decl)

variable {decl : Declaration}

include hentity

/-- What functions and methods have in common. -/
theorem withSignature_assures {callable : Callable} {make : Flags → List TypeId → Entity}
    (hwell : decl.shape.IsWellFormed unit decl.attributes ↔
      (callable.variadic = true → decl.attributes.sentinel = true))
    (htypes : decl.shape.typesNamed = callable.returns :: callable.params.map Parameter.type)
    (hmake : ∀ flags ids b, List.Forall₂ (Denotes unit b)
      (callable.returns :: callable.params.map Parameter.type) ids →
        Describes unit b decl.shape (make flags ids).detail) :
    BuildAssured unit settings active decl (do
      let flags ← ofExcept (variadicFlags decl callable.variadic)
      let ids ← signature unit entity callable
      return make flags ids) := by
  intro a ha
  refine (Assures.ofExcept (Q := fun flags _ => variadicFlags decl callable.variadic = .ok flags)
    ha (fun _ h => h) fun h hadm => ?_).bind fun flags b _ hb hflags => ?_
  · exact h (variadicFlags_isOk_iff.mpr (hwell.mp hadm.wellFormed))
  refine ((signature_assures hentity hb callable).orElse fun h hadm => h ?_).bind
    fun ids c _ hc hids => .pure hc ⟨?_, hmake flags ids c hids⟩
  · exact htypes ▸ hadm.types
  · exact hwell.mpr (variadicFlags_isOk_iff.mp ⟨flags, hflags⟩)

/-- A record is described by its fields; unions are not admissible. -/
theorem buildRecord_assures {isUnion : Bool} {fields : List Field}
    (hshape : decl.shape = .record isUnion fields) :
    BuildAssured unit settings active decl
      (buildRecord unit settings entity decl isUnion fields) := by
  intro a ha
  rw [hshape]
  unfold buildRecord
  cases isUnion with
  | true =>
    -- a union fails before its fields are looked at
    refine (Assures.throw (Q := fun _ _ => False) ha fun hadm => ?_).bind nofun
    cases (hadm.of_shape hshape).1
  | false =>
    refine ((fields_assures hentity ha fields).orElse fun h hadm => h fun f hf => ?_).bind
      fun es b _ hb hes => .pure hb ⟨rfl, .record hes⟩
    exact (hadm.of_shape hshape).2.2 f.type (List.mem_map.mpr ⟨f, hf, rfl⟩)

/-- A variable is described by its type, whatever its value. -/
theorem buildVariable_assures {type : TypeRef} {initializer : Option Initializer}
    (hshape : decl.shape = .variable type initializer) :
    BuildAssured unit settings active decl
      (buildVariable unit settings entity decl type initializer) := by
  intro a ha
  rw [hshape]
  refine (Assures.ofExcept (Q := fun v _ => initialValue decl.name initializer = .ok v) ha
    (fun _ h => h) fun h hadm => ?_).bind fun v b _ hb hv => ?_
  · exact h (initialValue_isOk_iff.mpr (hadm.of_shape hshape).1)
  refine ((resolve_assures hentity [] type nofun b hb).orElse fun h hadm => ?_).bind
    fun id c _ hc hid => .pure hc ⟨initialValue_isOk_iff.mp ⟨v, hv⟩, .global hid⟩
  exact h ((hadm.of_shape hshape).2.2 type (List.mem_singleton.mpr rfl))

omit hentity in
/-- An enumeration is described by its constants, of which nothing is asked but to be constants. -/
theorem buildEnumeration_assures {integerType : Option TypeRef} {constants : List DeclRef}
    (hshape : decl.shape = .enumeration integerType constants) :
    BuildAssured unit settings active decl (buildEnumeration unit settings decl constants) := by
  intro a ha
  rw [hshape]
  refine (Assures.ofExcept
    (Q := fun cs _ => constants.mapM (enumConstant unit decl.name) = .ok cs) ha
    (fun _ h => h) fun h hadm => ?_).bind fun cs b _ hb hcs => .pure hb ⟨?_, .enumeration⟩
  · exact h (constants_isOk_iff.mpr (hadm.of_shape hshape).1)
  · exact constants_isOk_iff.mp ⟨cs, hcs⟩

/-- An interface fails with its base only. -/
theorem buildInterface_assures {superclass : Option DeclRef} {refs : MemberRefs}
    {typeParameters : List String}
    (hshape : decl.shape = .interface superclass refs typeParameters) :
    BuildAssured unit settings active decl
      (buildInterface unit settings entity decl superclass refs typeParameters) := by
  intro a ha
  rw [hshape]
  refine ((optionalDependency_assures hentity ha "" superclass).orElse fun h hadm =>
    h (hadm.of_shape hshape).2.1).bind fun base b _ hb hbase => ?_
  refine (gatherMembers_gathers hentity hb refs decl.name).bind
    fun m c hbc hc hm => .pure hc ⟨trivial, ?_⟩
  exact .interface (hbase.mono hbc) hm

/-- A protocol never fails, whatever becomes of its members. -/
theorem buildProtocol_assures {refs : MemberRefs} (hshape : decl.shape = .protocol refs)
    (owner : String) :
    BuildAssured unit settings active decl (buildProtocol settings entity decl refs owner) := by
  intro a ha
  rw [hshape]
  exact (gatherMembers_gathers hentity ha refs decl.name).bind
    fun m b _ hb hm => .pure hb ⟨trivial, .protocol hm⟩

/-- A category fails with the interface that it extends only. -/
theorem buildCategory_assures {interface : DeclRef} {refs : MemberRefs}
    (hshape : decl.shape = .category interface refs) :
    BuildAssured unit settings active decl
      (buildCategory unit settings entity decl interface refs) := by
  intro a ha
  rw [hshape]
  refine ((dependency_assures hentity ha interface "").orElse fun h hadm => h ?_).bind
    fun extended b _ hb hextended => ?_
  · exact (hadm.of_shape hshape).2.1 interface (List.mem_singleton.mpr rfl)
  refine (gatherMembers_gathers hentity hb refs _).bind
    fun m c hbc hc hm => .pure hc ⟨trivial, ?_⟩
  exact .category (hbc.ready hextended) hm

/-- A property fails with one of its accessors only. -/
theorem buildProperty_assures {getter setter : Option DeclRef} {isStatic isOptional : Bool}
    (hshape : decl.shape = .property getter setter isStatic isOptional) (owner : String) :
    BuildAssured unit settings active decl
      (buildProperty unit settings entity decl getter setter isStatic isOptional owner) := by
  intro a ha
  rw [hshape]
  refine ((optionalDependency_assures hentity ha owner getter).orElse fun h hadm => ?_).bind
    fun get b _ hb hget => ?_
  · exact h fun d hd => (hadm.of_shape hshape).2.1 d (List.mem_append_left _ hd)
  refine ((optionalDependency_assures hentity hb owner setter).orElse fun h hadm => ?_).bind
    fun set c hbc hc hset => .pure hc ⟨trivial, .property (hget.mono hbc) hset⟩
  exact h fun d hd => (hadm.of_shape hshape).2.1 d (List.mem_append_right _ hd)

/-- The cases together: what is built is described by the declaration, and what fails is not
admissible. -/
theorem buildShape_assures (decl : Declaration) (owner : String) :
    BuildAssured unit settings active decl (buildShape unit settings entity decl owner) := by
  unfold buildShape
  cases hshape : decl.shape with
  | function callable =>
    refine withSignature_assures hentity ?_ ?_ ?_ <;> rw [hshape]
    · exact Iff.rfl
    · rfl
    · exact fun _ _ _ hids => .function hids
  | record isUnion fields => exact buildRecord_assures hentity hshape
  | «variable» type initializer => exact buildVariable_assures hentity hshape
  | enumeration _ constants => exact buildEnumeration_assures hshape
  | enumConstant value =>
    intro a ha
    rw [hshape]
    exact .pure ha ⟨trivial, .enumConstant⟩
  | interface superclass members typeParameters => exact buildInterface_assures hentity hshape
  | protocol members => exact buildProtocol_assures hentity hshape owner
  | category interface members => exact buildCategory_assures hentity hshape
  | method callable isStatic isAccessor isOptional =>
    refine withSignature_assures hentity ?_ ?_ ?_ <;> rw [hshape]
    · exact Iff.rfl
    · rfl
    · exact fun _ _ _ hids => .method hids
  | property getter setter isStatic isOptional => exact buildProperty_assures hentity hshape owner

/-- A construction from the declaration at `d` gives a complete entity, or `d` is not
constructible. -/
theorem build_assures {d : DeclRef} (hdecl : unit.declaration? d = some decl) (owner : String)
    (ha : Sound unit settings active a) :
    Assures (Sound unit settings active) (build unit settings entity d decl owner) a
      (fun e b => Complete unit settings b d decl e) (¬Constructible unit settings d) := by
  refine (Assures.ofExcept (Q := fun window _ => Window.ofDeclaration settings decl = .ok window)
    ha (fun _ h => h) fun h hd => h (hd.admissible hdecl).available).bind
      fun window b _ hb hwindow => ?_
  refine ((buildShape_assures hentity decl owner b hb).orElse fun h hd => ?_).bind
    fun e c _ hc he => .pure hc ?_
  · exact h (hd.admissible hdecl)
  · exact ⟨hdecl, rfl, ⟨window, hwindow⟩, he.1, he.2⟩

end Parts

end InteropGraph.Assembly
