import InteropGraph.Pass.Draft

/-!
# Redundant members

`Draft.dropRedundant` removes the members that a container lists twice, and those of an interface
that are identical to an inherited one.
-/

namespace InteropGraph

/-- What makes two members identical. -/
structure MemberKey where
  kind : Kind
  name : String
  static : Bool
  signature : List BridgeType
deriving DecidableEq, Repr

namespace Graph

/-- The types in the signature of a method. -/
def signatureTypes (g : Graph) (id : EntityId) : List BridgeType :=
  (((g.entity? id).bind Entity.methodSignature?).getD []).filterMap g.type?

/-- The key of an entity; the signature of a property is that of its getter. -/
def memberKey? (g : Graph) (id : EntityId) : Option MemberKey :=
  (g.entity? id).map fun e =>
    { kind := e.kind
      name := e.name
      static := e.flags.static
      signature := match e.detail with
        | .method .. => g.signatureTypes id
        | .property (some getter) _ => g.signatureTypes getter
        | _ => [] }

/-- The keys of the members that an interface inherits. -/
def inheritedKeys (g : Graph) (id : EntityId) : List MemberKey :=
  (g.bases id).flatMap fun base =>
    ((g.members? base).map Members.all |>.getD []).filterMap g.memberKey?

/-- The native name of a member, and whether it is static. -/
def nameAndStatic? (g : Graph) (id : EntityId) : Option (String × Bool) :=
  (g.entity? id).map fun e => (e.name, e.flags.static)

/-- The members that stay: those that exist, whose name has not come up before, and that are not
inherited. -/
def keepNew (g : Graph) (inherited : List MemberKey) (seen : List (String × Bool)) :
    List EntityId → List EntityId
  | [] => []
  | id :: ids =>
    match g.nameAndStatic? id with
    | none => keepNew g inherited seen ids
    | some name =>
      if name ∈ seen then keepNew g inherited seen ids
      else if (g.memberKey? id).any (· ∈ inherited) then keepNew g inherited (name :: seen) ids
      else id :: keepNew g inherited (name :: seen) ids

end Graph

namespace Draft

/-- Removes the redundant members of one container. -/
def dropRedundantFrom (d : Draft) (id : EntityId) : Draft :=
  match d.graph.members? id with
  | none => d
  | some m =>
    let inherited := d.graph.inheritedKeys id
    d.replaceMembers id m (m.mapLists (d.graph.keepNew inherited []))

/-- Removes the redundant members of the listed containers, one container after the other. -/
def dropRedundant (d : Draft) : Draft :=
  d.forListed dropRedundantFrom

end Draft

end InteropGraph
