import InteropGraph.Proofs.Assembly.Constructible
import Mathlib.Logic.Relation

/-!
# What is mentioned

A declaration mentions whatever its construction may ask for by itself: not only what it depends on,
but also its members and protocols, which are left out if they fail. The same goes for types. What a
construction sets in motion is found by following mentions.
-/

namespace InteropGraph

/-- A declaration or a type of a source unit. -/
inductive Item where
  | decl (d : DeclRef)
  | type (t : TypeRef)
deriving DecidableEq, Repr

/-- The protocols and members that a container declares. -/
def MemberRefs.all (m : MemberRefs) : List DeclRef :=
  m.protocols ++ m.methods ++ m.properties

/-- The protocols that qualify a type. -/
def TypeNode.protocols : TypeNode → List DeclRef
  | .object protocols | .objectPointer _ protocols _ => protocols
  | _ => []

/-- The declarations that the conversion of a type may request. -/
def TypeNode.requests (unit : SourceUnit) (node : TypeNode) : List DeclRef :=
  node.dependencies unit ++ node.protocols

/-- The declarations that a construction may request, apart from those that its types name. -/
def Shape.requests (shape : Shape) : List DeclRef :=
  shape.dependencies ++ shape.members?.toList.flatMap MemberRefs.all

namespace Assembly

/-- The construction of an entity, or the resolution of a type, may ask for another one. -/
inductive Mentions (unit : SourceUnit) : Item → Item → Prop where
  | request {d x decl} (declared : unit.declaration? d = some decl)
      (mem : x ∈ decl.shape.requests) : Mentions unit (.decl d) (.decl x)
  | named {d t decl} (declared : unit.declaration? d = some decl)
      (mem : t ∈ decl.shape.typesNamed) : Mentions unit (.decl d) (.type t)
  | requestOfType {t x node} (found : unit.type? t = some node)
      (mem : x ∈ node.requests unit) : Mentions unit (.type t) (.decl x)
  | part {t u node} (found : unit.type? t = some node) (mem : u ∈ node.parts) :
      Mentions unit (.type t) (.type u)

end Assembly

end InteropGraph
