import InteropGraph.Version

/-!
# Source units

A source unit holds the declarations of a foreign compilation unit and the types that they mention.
Declarations and types refer to each other by their positions, so that cycles are plain data; a
reference may also lead nowhere.
-/

namespace InteropGraph

/-- A reference to a declaration of a source unit. -/
structure DeclRef where
  index : UInt32
deriving DecidableEq, Repr, Inhabited

/-- A reference to a type of a source unit. -/
structure TypeRef where
  index : UInt32
deriving DecidableEq, Repr, Inhabited

/-- Since when, until when and whether at all a declaration can be used on one platform. -/
structure Availability where
  platform : String
  introduced : Option Version
  deprecated : Option Version
  obsoleted : Option Version
  unavailable : Bool
deriving DecidableEq, Repr

/-- Attributes that every kind of declaration may have. -/
structure Attributes where
  /-- The caller owns what is returned. -/
  returnsRetained : Bool
  /-- The caller does not own what is returned. -/
  returnsNotRetained : Bool
  /-- A variadic argument list ends with a null. -/
  sentinel : Bool
  /-- The declaration cannot be used on any platform. -/
  unavailable : Bool
deriving DecidableEq, Repr

/-- No attribute is set. -/
def Attributes.none : Attributes := ⟨false, false, false, false⟩

/-- An integer constant as the front end evaluated it: a bit pattern of the given width. -/
structure BitConstant where
  bits : UInt64
  width : UInt32
  unsigned : Bool
deriving DecidableEq, Repr

/-- The initial value of a variable. -/
inductive Initializer where
  | integer (value : BitConstant)
  | float (value : Float)
  | struct
  | complex
  | vector
  | nonConstant
deriving Repr

/-- A parameter of a function or a method. -/
structure Parameter where
  name : String
  type : TypeRef
deriving DecidableEq, Repr

/-- A field of a record. -/
structure Field where
  name : String
  type : TypeRef
deriving DecidableEq, Repr

/-- What a function or a method takes and returns. -/
structure Callable where
  returns : TypeRef
  params : List Parameter
  variadic : Bool
deriving DecidableEq, Repr

/-- The members that a container declares, and the protocols that it conforms to. -/
structure MemberRefs where
  protocols : List DeclRef
  methods : List DeclRef
  properties : List DeclRef
deriving DecidableEq, Repr

/-- A container that declares no members. -/
def MemberRefs.empty : MemberRefs := ⟨[], [], []⟩

/-- What is declared. -/
inductive Shape where
  | function (callable : Callable)
  | record (isUnion : Bool) (fields : List Field)
  | variable (type : TypeRef) (initializer : Option Initializer)
  | enumeration (integerType : Option TypeRef) (constants : List DeclRef)
  | enumConstant (value : BitConstant)
  | interface (superclass : Option DeclRef) (members : MemberRefs) (typeParameters : List String)
  | protocol (members : MemberRefs)
  | category (interface : DeclRef) (members : MemberRefs)
  | method (callable : Callable) (isStatic isAccessor isOptional : Bool)
  | property (getter setter : Option DeclRef) (isStatic isOptional : Bool)
deriving Repr

/-- The kind of a declaration, in words. -/
def Shape.word : Shape → String
  | .function .. => "function"
  | .record .. => "record"
  | .variable .. => "var"
  | .enumeration .. => "enum"
  | .enumConstant .. => "enum constant"
  | .interface .. => "interface"
  | .protocol .. => "protocol"
  | .category .. => "category"
  | .method .. => "method"
  | .property .. => "property"

/-- Methods and properties exist only inside containers. -/
def Shape.isTopLevel : Shape → Bool
  | .method .. | .property .. => false
  | _ => true

/-- The members of an interface, a protocol or a category. -/
def Shape.members? : Shape → Option MemberRefs
  | .interface _ m _ => some m
  | .protocol m => some m
  | .category _ m => some m
  | _ => none

/-- A declaration. -/
structure Declaration where
  /-- The identifier, or the whole selector of a method. -/
  name : String
  /-- The full module name, such as `UIKit.UIView`. -/
  module : String
  /-- The name at run time, where that is another one. -/
  runtimeName : Option String
  availability : List Availability
  attributes : Attributes
  shape : Shape
deriving Repr

/-- The first availability entry for a platform; the case of ASCII letters does not count. -/
def Declaration.availabilityOn? (d : Declaration) (platform : String) : Option Availability :=
  let lower (s : String) := s.toList.map Char.toLower
  d.availability.find? fun a => lower a.platform = lower platform

/-! ### Types -/

/-- The types without parts. -/
inductive Primitive where
  | void | bool | char | signedChar | unsignedChar | short | unsignedShort | int | unsignedInt
  | long | unsignedLong | longLong | unsignedLongLong | float | double | longDouble | int128
  | unsignedInt128 | vector | extVector | complex | cString | selector | classObject
  | instancetype | protocolObject
deriving DecidableEq, Repr

/-- A type as the source unit mentions it. -/
inductive TypeNode where
  | primitive (p : Primitive)
  /-- Any object that conforms to the protocols. -/
  | object (protocols : List DeclRef)
  | objectPointer (interface : DeclRef) (protocols : List DeclRef) (arguments : List TypeRef)
  | pointer (pointee : TypeRef)
  | block (returns : TypeRef) (params : List TypeRef)
  | functionPointer (returns : TypeRef) (params : List TypeRef)
  | constantArray (element : TypeRef) (size : UInt64)
  | incompleteArray (element : TypeRef)
  | record (decl : DeclRef)
  | enumeration (decl : DeclRef)
  | alias (name : String) (underlying : TypeRef)
  | typeParameter (name : String)
deriving DecidableEq, Repr

/-! ### Units -/

/-- The declarations and types of a compilation unit. -/
structure SourceUnit where
  declarations : Array Declaration
  types : Array TypeNode

namespace SourceUnit

/-- A unit without declarations and types. -/
def empty : SourceUnit := ⟨#[], #[]⟩

/-- The declaration that a reference leads to; it may lead nowhere. -/
def declaration? (u : SourceUnit) (d : DeclRef) : Option Declaration :=
  u.declarations[d.index.toNat]?

/-- The type that a reference leads to; it may lead nowhere. -/
def type? (u : SourceUnit) (t : TypeRef) : Option TypeNode :=
  u.types[t.index.toNat]?

/-- The references that lead to a declaration, in order. -/
def declRefs (u : SourceUnit) : List DeclRef :=
  (List.range (min u.declarations.size UInt32.size)).map fun i => ⟨UInt32.ofNat i⟩

/-- The references that lead to a type, in order. -/
def typeRefs (u : SourceUnit) : List TypeRef :=
  (List.range (min u.types.size UInt32.size)).map fun i => ⟨UInt32.ofNat i⟩

/-- The declarations outside of containers, in order. -/
def topLevel (u : SourceUnit) : List (DeclRef × Declaration) :=
  u.declRefs.filterMap fun d =>
    match u.declaration? d with
    | some decl => if decl.shape.isTopLevel then some (d, decl) else none
    | none => none

theorem mem_declRefs {u : SourceUnit} {d : DeclRef} {decl : Declaration}
    (h : u.declaration? d = some decl) : d ∈ u.declRefs := by
  obtain ⟨hlt, -⟩ := Array.getElem?_eq_some_iff.mp h
  refine List.mem_map.mpr ⟨d.index.toNat, List.mem_range.mpr ?_, ?_⟩
  · exact Nat.lt_min.mpr ⟨hlt, d.index.toNat_lt⟩
  · simp

theorem mem_typeRefs {u : SourceUnit} {t : TypeRef} {node : TypeNode}
    (h : u.type? t = some node) : t ∈ u.typeRefs := by
  obtain ⟨hlt, -⟩ := Array.getElem?_eq_some_iff.mp h
  refine List.mem_map.mpr ⟨t.index.toNat, List.mem_range.mpr ?_, ?_⟩
  · exact Nat.lt_min.mpr ⟨hlt, t.index.toNat_lt⟩
  · simp

end SourceUnit

end InteropGraph
