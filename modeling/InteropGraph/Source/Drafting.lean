import InteropGraph.Source.Basic

/-!
# Drafting source units

Operations that extend a unit step by step. Equal types are kept once. A declaration that is
mentioned before it is known can be reserved and defined later.
-/

namespace InteropGraph.SourceUnit

/-- The reference to a type that is equal to `node`, which is added if there is none. -/
def intern (u : SourceUnit) (node : TypeNode) : TypeRef × SourceUnit :=
  match u.types.findIdx? (· = node) with
  | some i => (⟨UInt32.ofNat i⟩, u)
  | none => (⟨UInt32.ofNat u.types.size⟩, { u with types := u.types.push node })

/-- A pointer to objects of an interface. -/
def objectOf (u : SourceUnit) (interface : DeclRef) : TypeRef × SourceUnit :=
  u.intern (.objectPointer interface [] [])

/-- The type of pointers to a type, which is added if it is new. -/
def pointerTo (u : SourceUnit) (pointee : TypeRef) : TypeRef × SourceUnit :=
  u.intern (.pointer pointee)

/-- The type `BOOL`, a name for a signed character. -/
def boolean (u : SourceUnit) : TypeRef × SourceUnit :=
  let (underlying, u) := u.intern (.primitive .signedChar)
  u.intern (.alias "BOOL" underlying)

/-- Adds a declaration. -/
def declare (u : SourceUnit) (decl : Declaration) : DeclRef × SourceUnit :=
  (⟨UInt32.ofNat u.declarations.size⟩, { u with declarations := u.declarations.push decl })

/-- Adds an empty record in the place of a declaration that is defined later. -/
def reserve (u : SourceUnit) (name : String) : DeclRef × SourceUnit :=
  u.declare ⟨name, "", none, [], .none, .record false []⟩

/-- Puts `decl` in the place of a declaration; nothing happens if there is none. -/
def define (u : SourceUnit) (d : DeclRef) (decl : Declaration) : SourceUnit :=
  { u with declarations := u.declarations.setIfInBounds d.index.toNat decl }

end InteropGraph.SourceUnit
