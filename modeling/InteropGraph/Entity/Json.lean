import InteropGraph.Entity.Basic
import InteropGraph.Source.Json

/-!
# Entities as JSON

How entities and resolved types are written. Parts that say nothing, such as empty lists of labels
or missing versions, are left out.
-/

namespace InteropGraph

open Json

/-- References to entities are written as indices. -/
def EntityId.toJson (id : EntityId) : Json := .ofNat id.index

/-- References to types are written as indices. -/
def TypeId.toJson (t : TypeId) : Json := .ofNat t.index

/-- The list `items` as a part, unless it is empty. -/
def listPart (name : String) (write : α → Json) (items : List α) : Json.Members :=
  if items.isEmpty then [] else [(name, .ofList write items)]

/-- The value as a part, if there is one. -/
def optionPart (name : String) (write : α → Json) : Option α → Json.Members
  | some a => [(name, write a)]
  | none => []

/-! ### Types -/

/-- The word for a scalar type in dumps. -/
def Scalar.name : Scalar → String
  | .void => "void"
  | .bool => "bool"
  | .signedChar => "signed_char"
  | .unsignedChar => "unsigned_char"
  | .short => "short"
  | .unsignedShort => "unsigned_short"
  | .int => "int"
  | .unsignedInt => "unsigned_int"
  | .long => "long"
  | .unsignedLong => "unsigned_long"
  | .longLong => "long_long"
  | .unsignedLongLong => "unsigned_long_long"
  | .unichar => "unichar"
  | .float => "float"
  | .double => "double"
  | .cString => "c_string"
  | .selector => "selector"
  | .classObject => "class"
  | .protocolObject => "protocol"
  | .instancetype => "instancetype"

/-- All scalar types, in the order of their declaration. -/
def Scalar.all : List Scalar :=
  [.void, .bool, .signedChar, .unsignedChar, .short, .unsignedShort, .int, .unsignedInt, .long,
    .unsignedLong, .longLong, .unsignedLongLong, .unichar, .float, .double, .cString, .selector,
    .classObject, .protocolObject, .instancetype]

/-- A type is an object with its kind; parts that are empty lists are left out. -/
def BridgeType.toJson : BridgeType → Json
  | .scalar s => tagged s.name []
  | .object protocols => tagged "id" (listPart "protocols" EntityId.toJson protocols)
  | .interface e protocols arguments =>
    tagged "interface" (("interface", e.toJson) :: listPart "protocols" EntityId.toJson protocols ++
      listPart "type_arguments" TypeId.toJson arguments)
  | .typeParameter name => tagged "type_parameter" [("name", .text name)]
  | .pointer pointee => tagged "pointer" [("pointee", pointee.toJson)]
  | .block signature => tagged "block" [("signature", .ofList TypeId.toJson signature)]
  | .functionPointer signature =>
    tagged "function_pointer" [("signature", .ofList TypeId.toJson signature)]
  | .constantArray element size =>
    tagged "constant_array" [("element", element.toJson), ("size", .ofNat size.toNat)]
  | .incompleteArray element => tagged "incomplete_array" [("element", element.toJson)]
  | .struct e => tagged "struct" [("meta", e.toJson)]
  | .union name => tagged "union" [("name", .text name)]
  | .enumeration e => tagged "enum" [("meta", e.toJson)]

/-! ### Entities -/

/-- The names of flags, in the order in which they are written, with what is set. -/
def Flags.names (f : Flags) : List (String × Bool) :=
  [("VARIADIC", f.variadic), ("NULL_TERMINATED_VARIADIC", f.nullTerminated),
    ("OWNS_RETURNED", f.ownsReturned), ("HAS_ERROR_OUT_PARAM", f.errorOutParam),
    ("INITIALIZER", f.initializer), ("RETURNS_SELF", f.returnsSelf), ("OPTIONAL", f.optional),
    ("STATIC", f.static), ("PROPERTY_ACCESSOR", f.accessor)]

/-- The names of the flags that are set. -/
def Flags.display (f : Flags) : String :=
  " | ".intercalate ((f.names.filter Prod.snd).map Prod.fst)

/-- The flags with the given names. -/
def Flags.ofNames (names : List String) : Flags where
  variadic := "VARIADIC" ∈ names
  nullTerminated := "NULL_TERMINATED_VARIADIC" ∈ names
  ownsReturned := "OWNS_RETURNED" ∈ names
  errorOutParam := "HAS_ERROR_OUT_PARAM" ∈ names
  initializer := "INITIALIZER" ∈ names
  returnsSelf := "RETURNS_SELF" ∈ names
  optional := "OPTIONAL" ∈ names
  static := "STATIC" ∈ names
  accessor := "PROPERTY_ACCESSOR" ∈ names

/-- An integer is written as a number. -/
def IntegerValue.toJson (v : IntegerValue) : Json := .int v.toInt

/-- The lists of a container are all written, also when they are empty. -/
def Members.toJson (m : Members) : Json :=
  .object [("instance_methods", .ofList EntityId.toJson m.instanceMethods),
    ("static_methods", .ofList EntityId.toJson m.staticMethods),
    ("instance_properties", .ofList EntityId.toJson m.instanceProperties),
    ("static_properties", .ofList EntityId.toJson m.staticProperties),
    ("protocols", .ofList EntityId.toJson m.protocols)]

/-- The field of a record, with its type. -/
def EntityField.toJson (f : EntityField) : Json :=
  .object [("name", .text f.name), ("type", f.type.toJson)]

/-- A constant of an enumeration; the short name is left out if there is none. -/
def EnumField.toJson (f : EnumField) : Json :=
  .object (("name", .text f.name) :: optionPart "stripped_name" .text f.shortName ++
    [("value", f.value.toJson)])

/-- An initial value is written as a number. -/
def VariableValue.toJson : VariableValue → Json
  | .integer v => v.toJson
  | .float x => .float x

/-- The parts that an entity has by its kind. -/
def Detail.parts : Detail → Json.Members
  | .struct fields => [("fields", .ofList EntityField.toJson fields)]
  | .function signature => [("signature", .ofList TypeId.toJson signature)]
  | .enumeration common fields =>
    (if common.isEmpty then [] else [("prefix", .text common)]) ++
      [("fields", .ofList EnumField.toJson fields)]
  | .variable type value => ("type", type.toJson) :: optionPart "value" VariableValue.toJson value
  | .interface m base typeParameters =>
    ("members", m.toJson) :: optionPart "base" EntityId.toJson base ++
      listPart "type_parameters" .text typeParameters
  | .protocol m => [("members", m.toJson)]
  | .category m extended => [("members", m.toJson), ("extended_interface", extended.toJson)]
  | .method signature tokens =>
    ("signature", .ofList TypeId.toJson signature) :: listPart "constructor_tokens" .text tokens
  | .property getter setter =>
    optionPart "getter" EntityId.toJson getter ++ optionPart "setter" EntityId.toJson setter
  | .enumConstant value => [("value", value.toJson)]

/-- A detail is an object with the kind of the entity. -/
def Detail.toJson (d : Detail) : Json :=
  tagged d.kind.name d.parts

/-- An entity as dumps have it. Where it comes from is not written. -/
def Entity.toJson (e : Entity) : Json :=
  .object (("name", .text e.name) :: optionPart "demangled_name" .text e.runtimeName ++
    ("bridge_name", .text e.bridgeName) :: listPart "argument_labels" .text e.labels ++
    ("is_renamed", .bool e.renamed) :: ("module", .text e.module) ::
    optionPart "introduced" Version.toJson e.introduced ++
    optionPart "deprecated" Version.toJson e.deprecated ++
    optionPart "obsoleted" Version.toJson e.obsoleted ++
    [("flags", .text e.flags.display), ("detail", e.detail.toJson)])

end InteropGraph
