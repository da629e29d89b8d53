import InteropGraph.Assembly.Types
import InteropGraph.Window

/-!
# Which declarations can be constructed

`Constructible unit settings d` says without any state or order of requests that `d` has an entity:
`d` is in a set of declarations each of which passes its own checks and depends on members of the
set only. Declarations may depend on each other in cycles, so the greatest such set is meant;
types may not, so that `Resolves` is the least relation with its rule.
-/

namespace InteropGraph

/-- The types without parts that can be bridged. -/
def Primitive.isSupported : Primitive → Bool
  | .longDouble | .int128 | .unsignedInt128 | .vector | .extVector | .complex => false
  | _ => true

namespace TypeNode

/-- The type names that stand for a type of their own, whatever they are defined as. -/
def standaloneNames : List String := ["BOOL", "unichar", "instancetype"]

/-- Whether a type is of a shape that can be bridged at all. -/
def isSupported : TypeNode → Bool
  | .primitive p => p.isSupported
  | _ => true

/-- The types that a type is made of. -/
def parts : TypeNode → List TypeRef
  | .objectPointer _ _ arguments => arguments
  | .pointer pointee => [pointee]
  | .block returns params | .functionPointer returns params => returns :: params
  | .constantArray element _ | .incompleteArray element => [element]
  | .alias name underlying => if name ∈ standaloneNames then [] else [underlying]
  | .primitive _ | .object _ | .record _ | .enumeration _ | .typeParameter _ => []

/-- The declarations without which a type cannot be bridged. -/
def dependencies (unit : SourceUnit) : TypeNode → List DeclRef
  | .objectPointer interface _ _ => [interface]
  | .record d => if (Assembly.unionName? unit d).isSome then [] else [d]
  | .enumeration d => [d]
  | _ => []

end TypeNode

/-- Whether an entity can carry a value. -/
def Initializer.isSupported : Initializer → Bool
  | .integer _ | .float _ => true
  | .struct | .complex | .vector | .nonConstant => false

namespace Shape

/-- What a declaration has to fulfil by itself. -/
def IsWellFormed (unit : SourceUnit) (attributes : Attributes) : Shape → Prop
  | .function callable | .method callable _ _ _ =>
    callable.variadic = true → attributes.sentinel = true
  | .record isUnion _ => isUnion = false
  | .variable _ initializer => ∀ i ∈ initializer, i.isSupported = true
  | .enumeration _ constants =>
    ∀ d ∈ constants, ∃ decl value, unit.declaration? d = some decl ∧
      decl.shape = .enumConstant value
  | _ => True

/-- The declarations without which an entity cannot be made. -/
def dependencies : Shape → List DeclRef
  | .interface superclass _ _ => superclass.toList
  | .category extended _ => [extended]
  | .property getter setter _ _ => getter.toList ++ setter.toList
  | _ => []

/-- The types that a declaration names. -/
def typesNamed : Shape → List TypeRef
  | .function callable | .method callable _ _ _ =>
    callable.returns :: callable.params.map Parameter.type
  | .record _ fields => fields.map Field.type
  | .variable type _ => [type]
  | _ => []

end Shape

namespace Assembly

variable (unit : SourceUnit) (settings : Settings)

/-- The types that can be bridged if the declarations in `G` can. -/
inductive Resolves (G : DeclRef → Prop) : TypeRef → Prop where
  | intro {t : TypeRef} {node : TypeNode} (found : unit.type? t = some node)
      (supported : node.isSupported = true) (dependencies : ∀ d ∈ node.dependencies unit, G d)
      (parts : ∀ u ∈ node.parts, Resolves G u) : Resolves G t

/-- Whether the entity of a declaration can be made if those of the declarations in `G` can. -/
structure Admissible (G : DeclRef → Prop) (decl : Declaration) : Prop where
  available : ∃ window, Window.ofDeclaration settings decl = .ok window
  wellFormed : decl.shape.IsWellFormed unit decl.attributes
  dependencies : ∀ d ∈ decl.shape.dependencies, G d
  types : ∀ t ∈ decl.shape.typesNamed, Resolves unit G t

/-- Every member of `G` is a declaration whose entity can be made if those of `G` can. -/
def Consistent (G : DeclRef → Prop) : Prop :=
  ∀ d, G d → ∃ decl, unit.declaration? d = some decl ∧ Admissible unit settings G decl

/-- The greatest consistent set. -/
def Constructible (d : DeclRef) : Prop :=
  ∃ G, Consistent unit settings G ∧ G d

variable {unit : SourceUnit} {settings : Settings} {G G' : DeclRef → Prop} {t : TypeRef}

namespace Resolves

/-- With more declarations that are good, more types resolve. -/
theorem mono (hG : ∀ d, G d → G' d) (h : Resolves unit G t) : Resolves unit G' t := by
  induction h with
  | intro found supported dependencies _ ih =>
    exact .intro found supported (fun d hd => hG d (dependencies d hd)) ih

/-- A type that resolves is supported, its declarations are good, and its parts resolve. -/
theorem inv {node : TypeNode} (h : Resolves unit G t) (hnode : unit.type? t = some node) :
    node.isSupported = true ∧ (∀ d ∈ node.dependencies unit, G d) ∧
      ∀ u ∈ node.parts, Resolves unit G u := by
  obtain ⟨found, supported, dependencies, parts⟩ := h
  obtain rfl : node = _ := Option.some.inj (hnode.symm.trans found)
  exact ⟨supported, dependencies, parts⟩

end Resolves

/-- `u` is a part of `t`. -/
def IsPart (unit : SourceUnit) (u t : TypeRef) : Prop :=
  ∃ node, unit.type? t = some node ∧ u ∈ node.parts

/-- If the types around `t` have `t` as a part, then they and `t` have each part of `t` as one. -/
theorem IsPart.around {u t : TypeRef} {around : List TypeRef} (h : IsPart unit u t)
    (haround : ∀ r ∈ around, Relation.TransGen (IsPart unit) t r) :
    ∀ r ∈ t :: around, Relation.TransGen (IsPart unit) u r := by
  intro r hr
  rcases List.mem_cons.mp hr with rfl | hr
  · exact .single h
  · exact (Relation.TransGen.single h).trans (haround r hr)

/-- A type that is found inside itself does not resolve. -/
theorem not_resolves_of_cycle (h : Relation.TransGen (IsPart unit) t t) :
    ¬Resolves unit G t := by
  intro ht
  induction ht with
  | @intro t node found _ _ _ ih =>
    -- the last step of the cycle leads from a part of `t` to `t`, so there is a cycle at the part
    have through (u : TypeRef) (hu : IsPart unit u t)
        (htu : u = t ∨ Relation.TransGen (IsPart unit) t u) : False := by
      obtain ⟨node', found', hmem⟩ := hu
      obtain rfl : node = node' := Option.some.inj (found.symm.trans found')
      have hpart : IsPart unit u t := ⟨node, found, hmem⟩
      rcases htu with rfl | htu
      · exact ih u hmem (.single hpart)
      · exact ih u hmem ((Relation.TransGen.single hpart).trans htu)
    cases h with
    | single h => exact through t h (.inl rfl)
    | tail htu hut => exact through _ hut (.inr htu)

/-- With more declarations that are good, more of them are admissible. -/
theorem Admissible.mono (hG : ∀ d, G d → G' d) {decl : Declaration}
    (h : Admissible unit settings G decl) : Admissible unit settings G' decl where
  available := h.available
  wellFormed := h.wellFormed
  dependencies d hd := hG d (h.dependencies d hd)
  types t ht := (h.types t ht).mono hG

/-- What admissibility says of a declaration of a known shape. -/
theorem Admissible.of_shape {decl : Declaration} {shape : Shape}
    (h : Admissible unit settings G decl) (hshape : decl.shape = shape) :
    shape.IsWellFormed unit decl.attributes ∧ (∀ d ∈ shape.dependencies, G d) ∧
      ∀ t ∈ shape.typesNamed, Resolves unit G t := by
  subst hshape
  exact ⟨h.wellFormed, h.dependencies, h.types⟩

/-- The greatest consistent set is one. -/
theorem consistent_constructible : Consistent unit settings (Constructible unit settings) := by
  rintro d ⟨G, hG, hd⟩
  obtain ⟨decl, hdecl, h⟩ := hG d hd
  exact ⟨decl, hdecl, h.mono fun d hd => ⟨G, hG, hd⟩⟩

/-- What can be constructed is admissible as the declaration that it is. -/
theorem Constructible.admissible {d : DeclRef} {decl : Declaration}
    (h : Constructible unit settings d) (hdecl : unit.declaration? d = some decl) :
    Admissible unit settings (Constructible unit settings) decl := by
  obtain ⟨decl', hdecl', hadm⟩ := consistent_constructible d h
  obtain rfl : decl = decl' := Option.some.inj (hdecl.symm.trans hdecl')
  exact hadm

end Assembly

end InteropGraph
