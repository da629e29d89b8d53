import InteropGraph.Constant

/-!
# Entities

An entity is a declaration as generators see it: with its bridge name, its members, and its types
resolved. Entities and resolved types live in two arenas and refer to each other by their places.
-/

namespace InteropGraph

/-- The place of an entity in a graph. -/
@[ext]
structure EntityId where
  index : Nat
deriving DecidableEq, Repr, Inhabited

/-- The place of a resolved type in a graph. -/
@[ext]
structure TypeId where
  index : Nat
deriving DecidableEq, Repr, Inhabited

/-! ### Types -/

/-- The resolved types without parts. -/
inductive Scalar where
  | void | bool | signedChar | unsignedChar | short | unsignedShort | int | unsignedInt | long
  | unsignedLong | longLong | unsignedLongLong | unichar | float | double | cString | selector
  | classObject | protocolObject | instancetype
deriving DecidableEq, Repr

/-- A resolved type. Signatures have the type of the result first. -/
inductive BridgeType where
  | scalar (s : Scalar)
  /-- Any object that conforms to the protocols. -/
  | object (protocols : List EntityId)
  /-- A pointer to objects of an interface. -/
  | interface (entity : EntityId) (protocols : List EntityId) (arguments : List TypeId)
  | typeParameter (name : String)
  | pointer (pointee : TypeId)
  | block (signature : List TypeId)
  | functionPointer (signature : List TypeId)
  | constantArray (element : TypeId) (size : UInt64)
  | incompleteArray (element : TypeId)
  | struct (entity : EntityId)
  /-- A union, which has no entity of its own. -/
  | union (name : String)
  | enumeration (entity : EntityId)
deriving DecidableEq, Repr

/-- Whether a type is a type parameter itself; what is around one does not count. -/
def BridgeType.isTypeParameter : BridgeType → Bool
  | .typeParameter _ => true
  | _ => false

/-! ### Entities -/

/-- What is known of an entity beside its kind. -/
structure Flags where
  /-- Takes a variadic argument list. -/
  variadic : Bool := false
  /-- The variadic argument list ends with a null. -/
  nullTerminated : Bool := false
  /-- The caller owns what is returned. -/
  ownsReturned : Bool := false
  /-- The last parameter takes an error out. -/
  errorOutParam : Bool := false
  /-- A method of the init family. -/
  initializer : Bool := false
  /-- Returns an object of the receiver's own class. -/
  returnsSelf : Bool := false
  /-- A member that a protocol does not require. -/
  optional : Bool := false
  /-- A member of the class and not of its instances. -/
  static : Bool := false
  /-- Gets or sets a property. -/
  accessor : Bool := false
deriving DecidableEq, Repr

/-- The members of a container. -/
structure Members where
  instanceMethods : List EntityId
  staticMethods : List EntityId
  instanceProperties : List EntityId
  staticProperties : List EntityId
  protocols : List EntityId
deriving DecidableEq, Repr

namespace Members

/-- A container that lists nothing. -/
def empty : Members := ⟨[], [], [], [], []⟩

/-- The methods and properties, those of instances first. -/
def all (m : Members) : List EntityId :=
  m.instanceMethods ++ m.staticMethods ++ m.instanceProperties ++ m.staticProperties

/-- Changes each of the lists of methods and properties. -/
def mapLists (f : List EntityId → List EntityId) (m : Members) : Members :=
  { instanceMethods := f m.instanceMethods, staticMethods := f m.staticMethods,
    instanceProperties := f m.instanceProperties, staticProperties := f m.staticProperties,
    protocols := m.protocols }

end Members

/-- A field of a struct with its type. -/
structure EntityField where
  name : String
  type : TypeId
deriving DecidableEq, Repr

/-- A constant of an enumeration; it has a short name if the enumeration has a prefix. -/
structure EnumField where
  name : String
  shortName : Option String
  value : IntegerValue
deriving DecidableEq, Repr

/-- The value of a global variable. -/
inductive VariableValue where
  | integer (value : IntegerValue)
  | float (value : Float)
deriving Repr

/-- What an entity is. -/
inductive Detail where
  | struct (fields : List EntityField)
  | function (signature : List TypeId)
  | enumeration (common : String) (fields : List EnumField)
  | variable (type : TypeId) (value : Option VariableValue)
  | interface (members : Members) (base : Option EntityId) (typeParameters : List String)
  | protocol (members : Members)
  | category (members : Members) (extended : EntityId)
  | method (signature : List TypeId) (tokens : List String)
  | property (getter setter : Option EntityId)
  | enumConstant (value : IntegerValue)
deriving Repr

/-- The kinds of entities. Unions have no entities, but a place in the order of kinds. -/
inductive Kind where
  | struct
  | union
  | function
  | enumeration
  | variable
  | interface
  | protocol
  | category
  | method
  | property
  | enumConstant
deriving DecidableEq, Repr

/-- What kind of entity has such a detail. -/
def Detail.kind : Detail → Kind
  | .struct .. => .struct
  | .function .. => .function
  | .enumeration .. => .enumeration
  | .variable .. => .variable
  | .interface .. => .interface
  | .protocol .. => .protocol
  | .category .. => .category
  | .method .. => .method
  | .property .. => .property
  | .enumConstant .. => .enumConstant

/-- The word for a kind in dumps. -/
def Kind.name : Kind → String
  | .struct => "struct"
  | .union => "union"
  | .function => "function"
  | .enumeration => "enum"
  | .variable => "var"
  | .interface => "interface"
  | .protocol => "protocol"
  | .category => "category"
  | .method => "method"
  | .property => "property"
  | .enumConstant => "enum_constant"

/-- A declaration as generators see it. -/
structure Entity where
  /-- The native identifier or selector. -/
  name : String
  /-- The name at run time, where that is another one. -/
  runtimeName : Option String
  /-- The name for generators. -/
  bridgeName : String
  labels : List String
  renamed : Bool
  module : String
  introduced : Option Version
  deprecated : Option Version
  obsoleted : Option Version
  flags : Flags
  /-- The declaration that the entity was made from; made-up entities have none. -/
  source : Option DeclRef
  detail : Detail
deriving Repr

namespace Entity

/-- An entity that goes by its native name. -/
def plain (name module : String) (detail : Detail) : Entity where
  name := name
  runtimeName := none
  bridgeName := name
  labels := []
  renamed := false
  module := module
  introduced := none
  deprecated := none
  obsoleted := none
  flags := {}
  source := none
  detail := detail

/-- The kind of an entity is that of its detail. -/
def kind (e : Entity) : Kind := e.detail.kind

/-- What an entity lists, if it is a container. -/
def members? (e : Entity) : Option Members :=
  match e.detail with
  | .interface m _ _ => some m
  | .protocol m => some m
  | .category m _ => some m
  | _ => none

/-- Changes the members of a container. -/
def mapMembers (f : Members → Members) (e : Entity) : Entity :=
  { e with detail := match e.detail with
      | .interface m base params => .interface (f m) base params
      | .protocol m => .protocol (f m)
      | .category m extended => .category (f m) extended
      | detail => detail }

/-- The base of an interface. -/
def base? (e : Entity) : Option EntityId :=
  match e.detail with
  | .interface _ base _ => base
  | _ => none

/-- The signature of a method. -/
def methodSignature? (e : Entity) : Option (List TypeId) :=
  match e.detail with
  | .method signature _ => some signature
  | _ => none

/-- The number of parameters of a method; zero for everything else. -/
def arity (e : Entity) : Nat :=
  match e.methodSignature? with
  | some signature => signature.length - 1
  | none => 0

end Entity

end InteropGraph
