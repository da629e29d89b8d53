import InteropGraph.Assembly.Basic
import InteropGraph.Options
import InteropGraph.Unseen

/-!
# Resolving types

`resolve` makes a bridge type of a type of the source unit, and remembers it. The declarations that
the type names are requested through `entity`; a type that contains itself without a declaration
in between is refused.

`peel?` looks through type names without resolving anything.
-/

namespace InteropGraph.Assembly

/-- How a step requests the entity of a declaration, given the owner for look-ups of names. -/
abbrev Request := DeclRef → (owner : String) → Assemble EntityId

/-- A declaration in words, for the report of a failure. -/
def describe (unit : SourceUnit) (d : DeclRef) : String :=
  match unit.declaration? d with
  | some decl => decl.shape.word ++ " '" ++ decl.name ++ "'"
  | none => "#" ++ toString d.index.toNat

/-- Runs a step that the current construction depends on. -/
def dependingOn (name : String) (step : Assemble α) : Assemble α :=
  step.adapt (.dependency name)

/-- Requests an entity that the current construction depends on. -/
def dependency (unit : SourceUnit) (entity : Request) (d : DeclRef) (owner : String) :
    Assemble EntityId :=
  dependingOn (describe unit d) (entity d owner)

/-! ### Conversion -/

/-- The bridge type of a type without parts. -/
def ofPrimitive : Primitive → Except Failure Scalar
  | .void => .ok .void
  | .bool => .ok .bool
  | .char | .signedChar => .ok .signedChar
  | .unsignedChar => .ok .unsignedChar
  | .short => .ok .short
  | .unsignedShort => .ok .unsignedShort
  | .int => .ok .int
  | .unsignedInt => .ok .unsignedInt
  | .long => .ok .long
  | .unsignedLong => .ok .unsignedLong
  | .longLong => .ok .longLong
  | .unsignedLongLong => .ok .unsignedLongLong
  | .float => .ok .float
  | .double => .ok .double
  | .cString => .ok .cString
  | .selector => .ok .selector
  | .classObject => .ok .classObject
  | .protocolObject => .ok .protocolObject
  | .instancetype => .ok .instancetype
  | .longDouble => .error (.skipped "long double types are not supported")
  | .int128 | .unsignedInt128 => .error (.skipped "128-bit integer types are not supported")
  | .vector | .extVector => .error (.skipped "vector types are not supported")
  | .complex => .error (.skipped "complex types are not supported")

/-- The type names that stand for a type of their own, whatever they are defined as. -/
def namedType? : String → Option Scalar
  | "BOOL" => some .bool
  | "unichar" => some .unichar
  | "instancetype" => some .instancetype
  | _ => none

/-- The protocols that can be made; the others are left out. -/
def qualifiers (entity : Request) (protocols : List DeclRef) : Assemble (List EntityId) :=
  protocols.filterMapM fun p => attempt (entity p "")

/-- Whether none of the type arguments is a type parameter. -/
def closedArguments (g : Graph) (arguments : List TypeId) : Bool :=
  arguments.all fun t => (g.type? t).any fun type => !type.isTypeParameter

/-- The name of a union that is declared at `d`, if there is one. -/
def unionName? (unit : SourceUnit) (d : DeclRef) : Option String :=
  match unit.declaration? d with
  | some decl =>
    match decl.shape with
    | .record true _ => some decl.name
    | _ => none
  | none => none

/-- Makes the bridge type of a type, whose parts are resolved by `type`. An interface type keeps its
type arguments only if all of them are closed. -/
def convert (unit : SourceUnit) (entity : Request) (type : TypeRef → Assemble TypeId) :
    TypeNode → Assemble BridgeType
  | .primitive p => return .scalar (← ofExcept (ofPrimitive p))
  | .object protocols => return .object (← qualifiers entity protocols)
  | .objectPointer interface protocols arguments => do
    let id ← dependency unit entity interface ""
    let arguments ← arguments.mapM type
    let closed := closedArguments (← currentGraph) arguments
    let protocols ← qualifiers entity protocols
    return .interface id protocols (if closed then arguments else [])
  | .pointer pointee => return .pointer (← type pointee)
  | .block returns params => return .block (← (returns :: params).mapM type)
  | .functionPointer returns params => return .functionPointer (← (returns :: params).mapM type)
  | .constantArray element size => return .constantArray (← type element) size
  | .incompleteArray element => return .incompleteArray (← type element)
  | .record d =>
    match unionName? unit d with
    | some name => return .union name
    | none => return .struct (← dependency unit entity d "")
  | .enumeration d => return .enumeration (← dependency unit entity d "")
  | .typeParameter name => return .typeParameter name
  | .alias name underlying =>
    match namedType? name with
    | some s => return .scalar s
    | none => do
      let id ← type underlying
      match (← currentGraph).type? id with
      | some t => return t
      | none => throw (.invalid s!"typedef '{name}' has no underlying type")

/-- Resolves a type, given the types that are being resolved around it. -/
def resolve (unit : SourceUnit) (entity : Request) (resolving : List TypeRef) (t : TypeRef) :
    Assemble TypeId := do
  match (← get).typeId? t with
  | some id => return id
  | none =>
    match _found : unit.type? t with
    | none => throw (.invalid s!"dangling type id {t.index.toNat}")
    | some node =>
      if _fresh : t ∈ resolving then throw (.invalid s!"cyclic type id {t.index.toNat}")
      else
        let type ← convert unit entity (fun part => resolve unit entity (t :: resolving) part) node
        addType t type
termination_by unseen unit.typeRefs resolving
decreasing_by exact unseen_cons_lt (SourceUnit.mem_typeRefs _found) _fresh

/-! ### Looking through type names -/

/-- Chains of type names that are longer are taken to be malformed. -/
def maxAliasDepth : Nat := 64

/-- The type behind a chain of at most `depth` type names. -/
def peelWithin? (unit : SourceUnit) : (depth : Nat) → TypeRef → Option TypeNode
  | 0, _ => none
  | depth + 1, t =>
    match unit.type? t with
    | some (.alias name underlying) =>
      if name = "instancetype" then some (.primitive .instancetype)
      else peelWithin? unit depth underlying
    | node? => node?

/-- The type behind a chain of type names. -/
def peel? (unit : SourceUnit) (t : TypeRef) : Option TypeNode :=
  peelWithin? unit maxAliasDepth t

/-- Whether a type is a pointer to a pointer to objects of the error interface. -/
def isErrorOut (unit : SourceUnit) (errorInterface : String) (t : TypeRef) : Bool :=
  match peel? unit t with
  | some (.pointer pointee) =>
    match peel? unit pointee with
    | some (.objectPointer interface _ _) =>
      (unit.declaration? interface).any fun decl => decl.name = errorInterface
    | _ => false
  | _ => false

/-- Whether a type is `instancetype` behind its typedefs. -/
def isInstancetype (unit : SourceUnit) (t : TypeRef) : Bool :=
  peel? unit t = some (.primitive .instancetype)

end InteropGraph.Assembly
