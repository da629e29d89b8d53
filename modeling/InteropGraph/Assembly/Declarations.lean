import InteropGraph.Assembly.Types
import InteropGraph.Naming.CommonPrefix
import InteropGraph.Naming.Names
import InteropGraph.Window

/-!
# Building entities

`build` makes the entity of one declaration. The declarations that it depends on are requested
through `entity`.
-/

namespace InteropGraph.Assembly

variable (unit : SourceUnit) (settings : Settings) (entity : Request)

/-! ### Names -/

/-- An entity of a declaration with the given names. -/
def named (decl : Declaration) (names : Naming.Names) (detail : Detail) : Entity :=
  { Entity.plain decl.name decl.module detail with
    runtimeName := decl.runtimeName
    bridgeName := names.bridgeName
    labels := names.labels
    renamed := names.renamed }

/-- An entity of a declaration that is no method. -/
def entityOf (decl : Declaration) (owner : String) (detail : Detail) : Entity :=
  named decl (Naming.entityNames settings.renames decl.name owner) detail

/-! ### Members -/

/-- Whether an entity can be listed as a protocol: it is one, or it is still being built. -/
def mayBeProtocol (g : Graph) (id : EntityId) : Bool :=
  (g.kind? id).all (· = .protocol)

/-- The entities of the protocols that a container conforms to. -/
def gatherProtocols (protocols : List DeclRef) : Assemble (List EntityId) :=
  protocols.filterMapM fun d => do
    match ← attempt (entity d "") with
    | some id => return if mayBeProtocol (← currentGraph) id then some id else none
    | none => return none

/-- The entities of members with the knowledge whether each of them is static, as it is when the
member has been made. -/
def gatherStatic (members : List DeclRef) (owner : String) : Assemble (List (EntityId × Bool)) :=
  members.filterMapM fun d => do
    match ← attempt (entity d owner) with
    | some id => return some (id, (← currentGraph).isStatic id)
    | none => return none

/-- The ids that are static, or those that are not. -/
def pick (static : Bool) (ids : List (EntityId × Bool)) : List EntityId :=
  (ids.filter (·.2 = static)).map Prod.fst

/-- The members of a container, whose names are looked up under `owner`. -/
def gatherMembers (refs : MemberRefs) (owner : String) : Assemble Members := do
  let protocols ← gatherProtocols entity refs.protocols
  let methods ← gatherStatic entity refs.methods owner
  let properties ← gatherStatic entity refs.properties owner
  return (← currentGraph).sortMembers
    { instanceMethods := pick false methods, staticMethods := pick true methods,
      instanceProperties := pick false properties, staticProperties := pick true properties,
      protocols }

/-! ### Functions and methods -/

/-- What a variadic argument list says; only one that ends with a null can be bridged. -/
def variadicFlags (decl : Declaration) (variadic : Bool) : Except Failure Flags :=
  if !variadic then .ok {}
  else if decl.attributes.sentinel then .ok { variadic := true, nullTerminated := true }
  else .error (.skipped s!"'{decl.name}' is variadic")

/-- Whether the last parameter takes an error out. -/
def hasErrorOut (callable : Callable) : Bool :=
  match callable.params.getLast? with
  | some p => isErrorOut unit settings.errorInterface p.type
  | none => false

/-- Whether the caller owns the result: as the attributes say, or else by convention. -/
def ownsReturned (decl : Declaration) (byConvention : Bool) : Bool :=
  !decl.attributes.returnsNotRetained && (decl.attributes.returnsRetained || byConvention)

/-- The types of the result and of the parameters. -/
def signature (callable : Callable) : Assemble (List TypeId) :=
  (callable.returns :: callable.params.map Parameter.type).mapM (resolve unit entity [])

/-- Builds a function. It is refused if it is variadic and does not end with a null; the types of
its signature come next. -/
def buildFunction (decl : Declaration) (callable : Callable) : Assemble Entity := do
  let flags ← ofExcept (variadicFlags decl callable.variadic)
  let signature ← signature unit entity callable
  return { entityOf settings decl "" (.function signature) with
    flags := { flags with
      errorOutParam := hasErrorOut unit settings callable
      ownsReturned := ownsReturned decl (Naming.handsOverResult decl.name) } }

/-- Builds a method, named under `owner`. The flags that its name decides are those of its method
family. -/
def buildMethod (decl : Declaration) (callable : Callable) (isStatic isAccessor isOptional : Bool)
    (owner : String) : Assemble Entity := do
  let flags ← ofExcept (variadicFlags decl callable.variadic)
  let signature ← signature unit entity callable
  let family := Naming.methodFamily decl.name
  let errorOut := hasErrorOut unit settings callable
  let names := Naming.methodNames settings.renames decl.name owner errorOut
  return { named decl names (.method signature names.tokens) with
    flags := { flags with
      errorOutParam := errorOut
      initializer := family = .init
      ownsReturned := ownsReturned decl family.ownsReturned
      returnsSelf := isInstancetype unit callable.returns
      static := isStatic
      optional := isOptional
      accessor := isAccessor } }

/-! ### Values -/

/-- The value that a variable starts with. -/
def initialValue (name : String) : Option Initializer → Except Failure (Option VariableValue)
  | none => .ok none
  | some (.integer c) => .ok (some (.integer c.value))
  | some (.float x) => .ok (some (.float x))
  | some .struct => .error (.unsupportedValue s!"struct initializer of '{name}'")
  | some .complex => .error (.unsupportedValue s!"complex initializer of '{name}'")
  | some .vector => .error (.unsupportedValue s!"vector initializer of '{name}'")
  | some .nonConstant => .error (.unsupportedValue s!"non-constant initializer of '{name}'")

/-- The name and the value of a constant of the enumeration `name`. -/
def enumConstant (name : String) (d : DeclRef) : Except Failure (String × BitConstant) :=
  match unit.declaration? d with
  | none => .error (.invalid s!"enum '{name}' refers to missing constant #{d.index.toNat}")
  | some constant =>
    match constant.shape with
    | .enumConstant value => .ok (constant.name, value)
    | shape => .error (.invalid s!"enum '{name}' member '{constant.name}' is a {shape.word}")

/-- The constants of an enumeration, with short names if they share a prefix. -/
def enumeration (constants : List (String × BitConstant)) : Detail :=
  let common := Naming.commonPrefix (constants.map Prod.fst)
  .enumeration common (constants.map fun (name, value) =>
    { name
      shortName :=
        if common.isEmpty then none else some (String.ofList (name.toList.drop common.length))
      value := value.value })

/-! ### Declarations -/

/-- Builds a record from the types of its fields, in order; unions are refused before any of them.
-/
def buildRecord (decl : Declaration) (isUnion : Bool) (fields : List Field) : Assemble Entity := do
  if isUnion then throw (.skipped s!"union '{decl.name}' is not supported")
  let fields ← fields.mapM fun f => do
    let type ← dependingOn ("field '" ++ f.name ++ "'") (resolve unit entity [] f.type)
    return (⟨f.name, type⟩ : EntityField)
  return entityOf settings decl "" (.struct fields)

/-- Builds a variable. Its initial value is looked at before its type. -/
def buildVariable (decl : Declaration) (type : TypeRef) (initializer : Option Initializer) :
    Assemble Entity := do
  let value ← ofExcept (initialValue decl.name initializer)
  let type ← resolve unit entity [] type
  return entityOf settings decl "" (.variable type value)

/-- Builds an enumeration from constants that are read off the source unit; none of them is
requested. -/
def buildEnumeration (decl : Declaration) (constants : List DeclRef) : Assemble Entity := do
  let constants ← ofExcept (constants.mapM (enumConstant unit decl.name))
  return entityOf settings decl "" (enumeration constants)

/-- Requests the declaration that an entity refers to, if there is one. -/
def optionalDependency (owner : String) : Option DeclRef → Assemble (Option EntityId)
  | some d => some <$> dependency unit entity d owner
  | none => return none

/-- Builds an interface: its superclass is requested first, and nothing comes of it without that,
while members that fail are left out. -/
def buildInterface (decl : Declaration) (superclass : Option DeclRef) (members : MemberRefs)
    (typeParameters : List String) : Assemble Entity := do
  let base ← optionalDependency unit entity "" superclass
  let members ← gatherMembers entity members decl.name
  return entityOf settings decl "" (.interface members base typeParameters)

/-- Builds a protocol from its members, whose names are looked up under its own name. -/
def buildProtocol (decl : Declaration) (members : MemberRefs) (owner : String) :
    Assemble Entity := do
  let members ← gatherMembers entity members decl.name
  return entityOf settings decl owner (.protocol members)

/-- The members of a category are looked up under the name of the interface that it extends. -/
def buildCategory (decl : Declaration) (interface : DeclRef) (members : MemberRefs) :
    Assemble Entity := do
  let extended ← dependency unit entity interface ""
  let owner := ((unit.declaration? interface).map Declaration.name).getD decl.name
  let members ← gatherMembers entity members owner
  return entityOf settings decl "" (.category members extended)

/-- Builds a property. The accessors that it names are needed, and requested with its owner. -/
def buildProperty (decl : Declaration) (getter setter : Option DeclRef)
    (isStatic isOptional : Bool) (owner : String) : Assemble Entity := do
  let getter ← optionalDependency unit entity owner getter
  let setter ← optionalDependency unit entity owner setter
  return { entityOf settings decl owner (.property getter setter) with
    flags := { static := isStatic, optional := isOptional } }

/-- Makes an entity of a declaration by its kind. -/
def buildShape (decl : Declaration) (owner : String) : Assemble Entity :=
  match decl.shape with
  | .function callable => buildFunction unit settings entity decl callable
  | .record isUnion fields => buildRecord unit settings entity decl isUnion fields
  | .variable type initializer => buildVariable unit settings entity decl type initializer
  | .enumeration _ constants => buildEnumeration unit settings decl constants
  | .enumConstant value => return entityOf settings decl owner (.enumConstant value.value)
  | .interface superclass members typeParameters =>
    buildInterface unit settings entity decl superclass members typeParameters
  | .protocol members => buildProtocol settings entity decl members owner
  | .category interface members => buildCategory unit settings entity decl interface members
  | .method callable isStatic isAccessor isOptional =>
    buildMethod unit settings entity decl callable isStatic isAccessor isOptional owner
  | .property getter setter isStatic isOptional =>
    buildProperty unit settings entity decl getter setter isStatic isOptional owner

/-- Makes the entity of the declaration `decl` at `d`, if it can be used with the settings. -/
def build (d : DeclRef) (decl : Declaration) (owner : String) : Assemble Entity := do
  let window ← ofExcept (Window.ofDeclaration settings decl)
  let e ← buildShape unit settings entity decl owner
  return { e with
    source := some d
    introduced := window.introduced
    deprecated := window.deprecated
    obsoleted := window.obsoleted }

end InteropGraph.Assembly
