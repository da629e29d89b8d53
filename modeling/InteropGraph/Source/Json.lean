import InteropGraph.Json.Basic
import InteropGraph.Source.Basic

/-!
# Source units as JSON

`SourceUnit.ofJson?` reads a unit and `SourceUnit.toJson` writes it. A declaration has the parts of
its kind beside its own; parts that are missing have their defaults, and parts that are not known
do not count. A written unit has every part, except for runtime names and availability entries
that are absent.
-/

namespace InteropGraph

open Json

/-! ### References and versions -/

/-- References are read from indices of 32 bits, whether or not they lead anywhere. -/
def DeclRef.ofJson? (j : Json) : Option DeclRef :=
  j.uint32?.map DeclRef.mk

/-- References are read from indices of 32 bits, whether or not they lead anywhere. -/
def TypeRef.ofJson? (j : Json) : Option TypeRef :=
  j.uint32?.map TypeRef.mk

/-- References to declarations are written as indices. -/
def DeclRef.toJson (d : DeclRef) : Json := .ofNat d.index.toNat

/-- References to types are written as indices. -/
def TypeRef.toJson (t : TypeRef) : Json := .ofNat t.index.toNat

/-- A version is read from its text. -/
def Version.ofJson? (j : Json) : Option Version :=
  j.text?.bind fun s => (Version.parse s).toOption

/-- A version is written as a text. -/
def Version.toJson (v : Version) : Json := .text v.display

/-! ### Parts of declarations -/

/-- The names of the parts of an availability. -/
def Availability.parts : List String :=
  ["platform", "introduced", "deprecated", "obsoleted", "unavailable"]

/-- Reads an availability; only the platform has to be there. -/
def Availability.ofJson? (j : Json) : Option Availability := do
  let m ← j.members? parts
  return {
    platform := ← m.required "platform" text?
    introduced := ← m.optional "introduced" (orNull? Version.ofJson?) none
    deprecated := ← m.optional "deprecated" (orNull? Version.ofJson?) none
    obsoleted := ← m.optional "obsoleted" (orNull? Version.ofJson?) none
    unavailable := ← m.optional "unavailable" bool? false }

/-- An availability with all its parts, null for a version that is not known. -/
def Availability.toJson (a : Availability) : Json :=
  .object [("platform", .text a.platform), ("introduced", .ofOption Version.toJson a.introduced),
    ("deprecated", .ofOption Version.toJson a.deprecated),
    ("obsoleted", .ofOption Version.toJson a.obsoleted), ("unavailable", .bool a.unavailable)]

/-- The names of the attributes. -/
def Attributes.parts : List String :=
  ["returns_retained", "returns_not_retained", "sentinel", "unavailable"]

/-- Reads attributes; one that is left out is not set. -/
def Attributes.ofJson? (j : Json) : Option Attributes := do
  let m ← j.members? parts
  return {
    returnsRetained := ← m.optional "returns_retained" bool? false
    returnsNotRetained := ← m.optional "returns_not_retained" bool? false
    sentinel := ← m.optional "sentinel" bool? false
    unavailable := ← m.optional "unavailable" bool? false }

/-- Attributes are all written, whether set or not. -/
def Attributes.toJson (a : Attributes) : Json :=
  .object [("returns_retained", .bool a.returnsRetained),
    ("returns_not_retained", .bool a.returnsNotRetained), ("sentinel", .bool a.sentinel),
    ("unavailable", .bool a.unavailable)]

/-- The names of the parts of a constant. -/
def BitConstant.parts : List String := ["bits", "width", "unsigned"]

/-- Reads a constant from the members of an object, which may have others. -/
def BitConstant.ofMembers? (m : Json.Members) : Option BitConstant := do
  return {
    bits := ← m.required "bits" uint64?
    width := ← m.required "width" uint32?
    unsigned := ← m.optional "unsigned" bool? false }

/-- Reads a constant from an object of its own. -/
def BitConstant.ofJson? (j : Json) : Option BitConstant :=
  (j.members? parts).bind ofMembers?

/-- A constant as members of an object. -/
def BitConstant.members (c : BitConstant) : Json.Members :=
  [("bits", .ofNat c.bits.toNat), ("width", .ofNat c.width.toNat), ("unsigned", .bool c.unsigned)]

/-- A constant as an object of its own. -/
def BitConstant.toJson (c : BitConstant) : Json := .object c.members

/-- Reads a parameter; it may have no name. -/
def Parameter.ofJson? (j : Json) : Option Parameter := do
  let m ← j.members? ["name", "type"]
  return { name := ← m.optional "name" text? "", type := ← m.required "type" TypeRef.ofJson? }

/-- A parameter with its name, even if that is empty. -/
def Parameter.toJson (p : Parameter) : Json :=
  .object [("name", .text p.name), ("type", p.type.toJson)]

/-- Reads a field of a record; unlike a parameter it must be named. -/
def Field.ofJson? (j : Json) : Option Field := do
  let m ← j.members? ["name", "type"]
  return { name := ← m.required "name" text?, type := ← m.required "type" TypeRef.ofJson? }

/-- A field with its name and its type. -/
def Field.toJson (f : Field) : Json :=
  .object [("name", .text f.name), ("type", f.type.toJson)]

/-! ### Tagged values

A value of one of several kinds is an object with a part `kind`, or a list that begins with the
name of the kind. -/

/-- The kind that a tag names: by its name, or, if `numbered`, also by its place among the names. -/
def kindOf? (names : List String) (numbered : Bool) : Json → Option String
  | .text s => if s ∈ names then some s else none
  | .int (.ofNat n) => if numbered then names[n]? else none
  | _ => none

/-- The kind of a tagged value, and the value without its tag. -/
def untag? (names : List String) (numbered : Bool) : Json → Option (String × Json)
  | .object members => do
    let m ← (Json.object members).objectMembers? ["kind"]
    let kind ← m.required "kind" (kindOf? names numbered)
    return (kind, .object (members.filter (·.1 ≠ "kind")))
  | .list (tag :: items) => do
    let kind ← kindOf? names numbered tag
    return (kind, .list items)
  | _ => none

/-- A value of the given kind with its other parts. -/
def tagged (kind : String) (members : Json.Members) : Json :=
  .object (("kind", .text kind) :: members)

/-! ### Initializers -/

/-- The kinds of initializers by name. -/
def Initializer.kinds : List String :=
  ["integer", "float", "struct", "complex", "vector", "non_constant"]

/-- Reads an initializer; only numbers have members besides their kind. -/
def Initializer.ofJson? (j : Json) : Option Initializer := do
  let (kind, rest) ← untag? kinds true j
  match kind with
  | "integer" => return .integer (← BitConstant.ofJson? rest)
  | "float" =>
    let m ← rest.members? ["value"]
    return .float (← m.required "value" float?)
  | "struct" => (rest.members? []).map fun _ => .struct
  | "complex" => (rest.members? []).map fun _ => .complex
  | "vector" => (rest.members? []).map fun _ => .vector
  | "non_constant" => (rest.members? []).map fun _ => .nonConstant
  | _ => none

/-- An initializer is written with its kind. -/
def Initializer.toJson : Initializer → Json
  | .integer c => tagged "integer" c.members
  | .float x => tagged "float" [("value", .ofFloat x)]
  | .struct => tagged "struct" []
  | .complex => tagged "complex" []
  | .vector => tagged "vector" []
  | .nonConstant => tagged "non_constant" []

/-! ### Shapes -/

/-- Reads what is called from the members of a declaration. -/
def Callable.ofMembers? (m : Json.Members) : Option Callable := do
  return {
    returns := ← m.required "return_type" TypeRef.ofJson?
    params := ← m.optional "params" (listOf? Parameter.ofJson?) []
    variadic := ← m.optional "variadic" bool? false }

/-- What is called, as members of a declaration. -/
def Callable.members (c : Callable) : Json.Members :=
  [("return_type", c.returns.toJson), ("params", .ofList Parameter.toJson c.params),
    ("variadic", .bool c.variadic)]

/-- Reads the members of a container; a list that is left out is empty. -/
def MemberRefs.ofMembers? (m : Json.Members) : Option MemberRefs := do
  return {
    protocols := ← m.optional "protocols" (listOf? DeclRef.ofJson?) []
    methods := ← m.optional "methods" (listOf? DeclRef.ofJson?) []
    properties := ← m.optional "properties" (listOf? DeclRef.ofJson?) [] }

/-- The members of a container, as members of its declaration. -/
def MemberRefs.members (r : MemberRefs) : Json.Members :=
  [("protocols", .ofList DeclRef.toJson r.protocols), ("methods", .ofList DeclRef.toJson r.methods),
    ("properties", .ofList DeclRef.toJson r.properties)]

/-- The kinds of declarations by name. -/
def Shape.kinds : List String :=
  ["function", "record", "var", "enum", "enum_constant", "interface", "protocol", "category",
    "method", "property"]

/-- Reads the parts of a declaration of the given kind. -/
def Shape.ofKind? (kind : String) (j : Json) : Option Shape :=
  match kind with
  | "function" => do
    let m ← j.objectMembers? ["return_type", "params", "variadic"]
    return .function (← Callable.ofMembers? m)
  | "record" => do
    let m ← j.objectMembers? ["is_union", "fields"]
    return .record (← m.optional "is_union" bool? false)
      (← m.optional "fields" (listOf? Field.ofJson?) [])
  | "var" => do
    let m ← j.objectMembers? ["type", "initializer"]
    return .variable (← m.required "type" TypeRef.ofJson?)
      (← m.optional "initializer" (orNull? Initializer.ofJson?) none)
  | "enum" => do
    let m ← j.objectMembers? ["integer_type", "constants"]
    return .enumeration (← m.optional "integer_type" (orNull? TypeRef.ofJson?) none)
      (← m.optional "constants" (listOf? DeclRef.ofJson?) [])
  | "enum_constant" => do
    let m ← j.objectMembers? ["value"]
    return .enumConstant (← m.required "value" BitConstant.ofJson?)
  | "interface" => do
    let m ← j.objectMembers? ["superclass", "protocols", "methods", "properties", "type_parameters"]
    return .interface (← m.optional "superclass" (orNull? DeclRef.ofJson?) none)
      (← MemberRefs.ofMembers? m) (← m.optional "type_parameters" (listOf? text?) [])
  | "protocol" => do
    let m ← j.objectMembers? ["protocols", "methods", "properties"]
    return .protocol (← MemberRefs.ofMembers? m)
  | "category" => do
    let m ← j.objectMembers? ["interface", "protocols", "methods", "properties"]
    return .category (← m.required "interface" DeclRef.ofJson?) (← MemberRefs.ofMembers? m)
  | "method" => do
    let m ← j.objectMembers?
      ["class_method", "return_type", "params", "variadic", "property_accessor", "optional"]
    return .method (← Callable.ofMembers? m) (← m.optional "class_method" bool? false)
      (← m.optional "property_accessor" bool? false) (← m.optional "optional" bool? false)
  | "property" => do
    let m ← j.objectMembers? ["getter", "setter", "class_property", "optional"]
    return .property (← m.optional "getter" (orNull? DeclRef.ofJson?) none)
      (← m.optional "setter" (orNull? DeclRef.ofJson?) none)
      (← m.optional "class_property" bool? false) (← m.optional "optional" bool? false)
  | _ => none

/-- The name of the kind of a declaration. -/
def Shape.kind : Shape → String
  | .function .. => "function"
  | .record .. => "record"
  | .variable .. => "var"
  | .enumeration .. => "enum"
  | .enumConstant .. => "enum_constant"
  | .interface .. => "interface"
  | .protocol .. => "protocol"
  | .category .. => "category"
  | .method .. => "method"
  | .property .. => "property"

/-- The parts that a declaration has by its kind. -/
def Shape.members : Shape → Json.Members
  | .function c => c.members
  | .record isUnion fields =>
    [("is_union", .bool isUnion), ("fields", .ofList Field.toJson fields)]
  | .variable type initializer =>
    [("type", type.toJson), ("initializer", .ofOption Initializer.toJson initializer)]
  | .enumeration integerType constants =>
    [("integer_type", .ofOption TypeRef.toJson integerType),
      ("constants", .ofList DeclRef.toJson constants)]
  | .enumConstant value => [("value", value.toJson)]
  | .interface superclass members typeParameters =>
    ("superclass", .ofOption DeclRef.toJson superclass) :: members.members ++
      [("type_parameters", .ofList Json.text typeParameters)]
  | .protocol members => members.members
  | .category target members => ("interface", target.toJson) :: members.members
  | .method callable isStatic isAccessor isOptional =>
    ("class_method", .bool isStatic) :: callable.members ++
      [("property_accessor", .bool isAccessor), ("optional", .bool isOptional)]
  | .property getter setter isStatic isOptional =>
    [("getter", .ofOption DeclRef.toJson getter), ("setter", .ofOption DeclRef.toJson setter),
      ("class_property", .bool isStatic), ("optional", .bool isOptional)]

/-! ### Declarations -/

/-- The parts that a declaration of any kind has. -/
def Declaration.parts : List String :=
  ["name", "module", "runtime_name", "availability", "attributes"]

/-- Reads a declaration, whose shape is told by its kind and read from the same object. -/
def Declaration.ofJson? (j : Json) : Option Declaration := do
  let m ← j.objectMembers? (parts ++ ["kind"])
  let kind ← m.required "kind" (kindOf? Shape.kinds true)
  return {
    name := ← m.required "name" text?
    module := ← m.optional "module" text? ""
    runtimeName := ← m.optional "runtime_name" (orNull? text?) none
    availability := ← m.optional "availability" (listOf? Availability.ofJson?) []
    attributes := ← m.optional "attributes" Attributes.ofJson? .none
    shape := ← Shape.ofKind? kind j }

/-- A declaration with its shape in one object. Its own parts are all written but for a runtime name
and an availability that it does not have. -/
def Declaration.toJson (d : Declaration) : Json :=
  .object ([("name", .text d.name), ("module", .text d.module)] ++
    (match d.runtimeName with
      | some s => [("runtime_name", .text s)]
      | none => []) ++
    (if d.availability = [] then []
      else [("availability", .ofList Availability.toJson d.availability)]) ++
    ("attributes", d.attributes.toJson) :: ("kind", .text d.shape.kind) :: d.shape.members)

/-! ### Types -/

/-- The name of a type without parts. -/
def Primitive.kind : Primitive → String
  | .void => "void"
  | .bool => "bool"
  | .char => "char"
  | .signedChar => "signed_char"
  | .unsignedChar => "unsigned_char"
  | .short => "short"
  | .unsignedShort => "unsigned_short"
  | .int => "int"
  | .unsignedInt => "unsigned_int"
  | .long => "long"
  | .unsignedLong => "unsigned_long"
  | .longLong => "long_long"
  | .unsignedLongLong => "unsigned_long_long"
  | .float => "float"
  | .double => "double"
  | .longDouble => "long_double"
  | .int128 => "int128"
  | .unsignedInt128 => "unsigned_int128"
  | .vector => "vector"
  | .extVector => "ext_vector"
  | .complex => "complex"
  | .cString => "c_string"
  | .selector => "selector"
  | .classObject => "class"
  | .instancetype => "instancetype"
  | .protocolObject => "protocol_object"

/-- All primitive types, in the order of their declaration. -/
def Primitive.all : List Primitive :=
  [.void, .bool, .char, .signedChar, .unsignedChar, .short, .unsignedShort, .int, .unsignedInt,
    .long, .unsignedLong, .longLong, .unsignedLongLong, .float, .double, .longDouble, .int128,
    .unsignedInt128, .vector, .extVector, .complex, .cString, .selector, .classObject,
    .instancetype, .protocolObject]

/-- The primitive type that goes by a name. -/
def Primitive.ofKind? (kind : String) : Option Primitive :=
  all.find? (·.kind = kind)

/-- The kinds of types by name; every primitive type is a kind of its own. -/
def TypeNode.kinds : List String :=
  Primitive.all.map Primitive.kind ++
    ["id", "object_pointer", "pointer", "block", "function_pointer", "constant_array",
      "incomplete_array", "record", "enum", "typedef", "type_parameter"]

/-- Reads the parts of a type of the given kind. -/
def TypeNode.ofKind? (kind : String) (j : Json) : Option TypeNode :=
  match Primitive.ofKind? kind with
  | some p => (j.members? []).map fun _ => .primitive p
  | none =>
    match kind with
    | "id" => do
      let m ← j.members? ["protocols"]
      return .object (← m.optional "protocols" (listOf? DeclRef.ofJson?) [])
    | "object_pointer" => do
      let m ← j.members? ["interface", "protocols", "type_arguments"]
      return .objectPointer (← m.required "interface" DeclRef.ofJson?)
        (← m.optional "protocols" (listOf? DeclRef.ofJson?) [])
        (← m.optional "type_arguments" (listOf? TypeRef.ofJson?) [])
    | "pointer" => do
      let m ← j.members? ["pointee"]
      return .pointer (← m.required "pointee" TypeRef.ofJson?)
    | "block" => do
      let m ← j.members? ["return_type", "params"]
      return .block (← m.required "return_type" TypeRef.ofJson?)
        (← m.optional "params" (listOf? TypeRef.ofJson?) [])
    | "function_pointer" => do
      let m ← j.members? ["return_type", "params"]
      return .functionPointer (← m.required "return_type" TypeRef.ofJson?)
        (← m.optional "params" (listOf? TypeRef.ofJson?) [])
    | "constant_array" => do
      let m ← j.members? ["element", "size"]
      return .constantArray (← m.required "element" TypeRef.ofJson?)
        (← m.required "size" uint64?)
    | "incomplete_array" => do
      let m ← j.members? ["element"]
      return .incompleteArray (← m.required "element" TypeRef.ofJson?)
    | "record" => do
      let m ← j.members? ["decl"]
      return .record (← m.required "decl" DeclRef.ofJson?)
    | "enum" => do
      let m ← j.members? ["decl"]
      return .enumeration (← m.required "decl" DeclRef.ofJson?)
    | "typedef" => do
      let m ← j.members? ["name", "underlying"]
      return .alias (← m.required "name" text?) (← m.required "underlying" TypeRef.ofJson?)
    | "type_parameter" => do
      let m ← j.members? ["name"]
      return .typeParameter (← m.required "name" text?)
    | _ => none

/-- Reads a type, whose parts are told by its kind. -/
def TypeNode.ofJson? (j : Json) : Option TypeNode := do
  let (kind, rest) ← untag? kinds false j
  ofKind? kind rest

/-- A type is written with its kind and all its parts. -/
def TypeNode.toJson : TypeNode → Json
  | .primitive p => tagged p.kind []
  | .object protocols => tagged "id" [("protocols", .ofList DeclRef.toJson protocols)]
  | .objectPointer interface protocols arguments =>
    tagged "object_pointer" [("interface", interface.toJson),
      ("protocols", .ofList DeclRef.toJson protocols),
      ("type_arguments", .ofList TypeRef.toJson arguments)]
  | .pointer pointee => tagged "pointer" [("pointee", pointee.toJson)]
  | .block returns params =>
    tagged "block" [("return_type", returns.toJson), ("params", .ofList TypeRef.toJson params)]
  | .functionPointer returns params =>
    tagged "function_pointer"
      [("return_type", returns.toJson), ("params", .ofList TypeRef.toJson params)]
  | .constantArray element size =>
    tagged "constant_array" [("element", element.toJson), ("size", .ofNat size.toNat)]
  | .incompleteArray element => tagged "incomplete_array" [("element", element.toJson)]
  | .record decl => tagged "record" [("decl", decl.toJson)]
  | .enumeration decl => tagged "enum" [("decl", decl.toJson)]
  | .alias name underlying =>
    tagged "typedef" [("name", .text name), ("underlying", underlying.toJson)]
  | .typeParameter name => tagged "type_parameter" [("name", .text name)]

/-! ### Units -/

/-- Reads a unit; either part may be left out. -/
def SourceUnit.ofJson? (j : Json) : Option SourceUnit := do
  let m ← j.members? ["decls", "types"]
  let declarations ← m.optional "decls" (listOf? Declaration.ofJson?) []
  let types ← m.optional "types" (listOf? TypeNode.ofJson?) []
  return ⟨declarations.toArray, types.toArray⟩

/-- A unit is written in two parts, both in the order of their indices. -/
def SourceUnit.toJson (u : SourceUnit) : Json :=
  .object [("decls", .ofList Declaration.toJson u.declarations.toList),
    ("types", .ofList TypeNode.toJson u.types.toList)]

end InteropGraph
