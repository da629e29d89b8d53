import InteropGraph.Proofs.Assembly.Mentions
import InteropGraph.Proofs.Assembly.Origins

/-!
# Constructions inside of constructions

`Nested unit stack` says which constructions can be under way at one time: the innermost comes
first, each has been asked for by the next one, and the outermost is that of a top-level
declaration. So everything on the stack leads to the innermost construction. If members exist only
inside of containers (`SourceUnit.MembersInside`), then a member is under construction only inside
of the container that lists it; a container that has come to its members never finds one of them
under construction.
-/

namespace InteropGraph

namespace Assembly

variable {unit : SourceUnit} {c d p x : DeclRef} {stack : List DeclRef}

/-- The construction of `d` may ask for `x`, by itself or through the types that `d` names. -/
inductive Asks (unit : SourceUnit) (d x : DeclRef) : Prop where
  | itself {decl} (declared : unit.declaration? d = some decl) (mem : x ∈ decl.shape.requests)
  | typed {decl t u node} (declared : unit.declaration? d = some decl)
      (named : t ∈ decl.shape.typesNamed)
      (parts : Relation.ReflTransGen (fun t u => IsPart unit u t) t u)
      (found : unit.type? u = some node) (mem : x ∈ node.requests unit)

/-- A declaration that is asked for is mentioned, in one step or in more. -/
theorem Asks.mentions (h : Asks unit d x) :
    Relation.TransGen (Mentions unit) (.decl d) (.decl x) := by
  cases h with
  | itself declared mem => exact .single (.request declared mem)
  | @typed decl t u node declared named parts found mem =>
    have hparts : Relation.ReflTransGen (Mentions unit) (.type t) (.type u) := by
      refine parts.lift Item.type ?_
      rintro t u ⟨node, hnode, hu⟩
      exact .part hnode hu
    exact (Relation.TransGen.head' (.named declared named) hparts).tail (.requestOfType found mem)

/-- The constructions that can be under way at one time, the innermost first. -/
inductive Nested (unit : SourceUnit) : List DeclRef → Prop where
  | top {d : DeclRef} {decl : Declaration} (declared : unit.declaration? d = some decl)
      (top : decl.shape.isTopLevel = true) : Nested unit [d]
  | inside {c d : DeclRef} {stack : List DeclRef} (outer : Nested unit (c :: stack))
      (asks : Asks unit c d) (fresh : d ∉ c :: stack) : Nested unit (d :: c :: stack)

namespace Nested

/-- No construction is within itself. -/
theorem head_not_mem (h : Nested unit (c :: stack)) : c ∉ stack := by
  cases h with
  | top => exact List.not_mem_nil
  | inside _ _ fresh => exact fresh

/-- Everything that is under construction leads to the innermost. -/
theorem mentions (h : Nested unit (c :: stack)) (hp : p ∈ stack) :
    Relation.TransGen (Mentions unit) (.decl p) (.decl c) := by
  induction stack generalizing c with
  | nil => cases hp
  | cons c' stack ih =>
    cases h with
    | inside outer asks _ =>
      rcases List.mem_cons.mp hp with rfl | hp
      · exact asks.mentions
      · exact (ih outer hp).trans asks.mentions

/-- What has asked for something is declared. -/
theorem declared (h : Nested unit (c :: stack)) (hp : p ∈ stack) :
    ∃ decl, unit.declaration? p = some decl := by
  obtain ⟨x, hx, -⟩ := Relation.TransGen.head'_iff.mp (h.mentions hp)
  cases hx with
  | request declared _ => exact ⟨_, declared⟩
  | named declared _ => exact ⟨_, declared⟩

end Nested

end Assembly

/-! ### Members inside of containers -/

/-- The declarations that a type names. -/
def TypeNode.declarations : TypeNode → List DeclRef
  | .object protocols => protocols
  | .objectPointer interface protocols _ => interface :: protocols
  | .record d | .enumeration d => [d]
  | _ => []

/-- What converting a type may request are declarations that it names. -/
theorem TypeNode.requests_subset (unit : SourceUnit) (node : TypeNode) :
    node.requests unit ⊆ node.declarations := by
  intro d hd
  cases node with
  | object | objectPointer | enumeration => exact hd
  | record e =>
    rcases List.mem_append.mp hd with hd | hd
    · rw [dependencies] at hd
      split at hd
      · cases hd
      · exact hd
    · cases hd
  | primitive | pointer | block | functionPointer | constantArray | incompleteArray | «alias» |
    typeParameter => cases hd

namespace SourceUnit

variable {unit : SourceUnit} {c c' d : DeclRef}

/-- A method or a property. -/
def IsMember (unit : SourceUnit) (d : DeclRef) : Prop :=
  ∃ decl, unit.declaration? d = some decl ∧ decl.shape.isTopLevel = false

/-- The container `c` lists `d` as a method or as a property. -/
def Lists (unit : SourceUnit) (c d : DeclRef) : Prop :=
  ∃ decl refs, unit.declaration? c = some decl ∧ decl.shape.members? = some refs ∧
    d ∈ refs.methods ++ refs.properties

/-- A superclass, the target of a category, an entry of a list of protocols, or a declaration that a
type names. -/
inductive NamedOutside (unit : SourceUnit) (d : DeclRef) : Prop where
  | superclass {c decl refs typeParameters} (declared : unit.declaration? c = some decl)
      (shape : decl.shape = .interface (some d) refs typeParameters)
  | extended {c decl refs} (declared : unit.declaration? c = some decl)
      (shape : decl.shape = .category d refs)
  | protocol {c decl refs} (declared : unit.declaration? c = some decl)
      (container : decl.shape.members? = some refs) (mem : d ∈ refs.protocols)
  | type {t node} (found : unit.type? t = some node) (mem : d ∈ node.declarations)

/-- Members exist only inside of containers. -/
structure MembersInside (unit : SourceUnit) : Prop where
  methods : ∀ {c decl refs d member}, unit.declaration? c = some decl →
    decl.shape.members? = some refs → d ∈ refs.methods → unit.declaration? d = some member →
      member.shape.entityKind = .method
  properties : ∀ {c decl refs d member}, unit.declaration? c = some decl →
    decl.shape.members? = some refs → d ∈ refs.properties → unit.declaration? d = some member →
      member.shape.entityKind = .property
  /-- A member has one container at most. -/
  once : ∀ {c c' d}, unit.IsMember d → unit.Lists c d → unit.Lists c' d → c = c'
  /-- An accessor is listed by the container of its property, or by none. -/
  accessors : ∀ {p decl getter setter isStatic isOptional d c}, unit.declaration? p = some decl →
    decl.shape = .property getter setter isStatic isOptional →
      d ∈ getter.toList ++ setter.toList → unit.Lists c d → unit.Lists c p
  inside : ∀ {d}, unit.IsMember d → ¬unit.NamedOutside d

/-- A member is asked for by its container, or by a property as one of its accessors. -/
theorem MembersInside.of_asks (h : unit.MembersInside) (hd : unit.IsMember d)
    (hasks : Assembly.Asks unit c d) : unit.Lists c d ∨
      ∃ decl getter setter isStatic isOptional, unit.declaration? c = some decl ∧
        decl.shape = .property getter setter isStatic isOptional ∧
          d ∈ getter.toList ++ setter.toList := by
  cases hasks with
  | typed _ _ _ found mem =>
    exact absurd (.type found (TypeNode.requests_subset unit _ mem)) (h.inside hd)
  | @itself decl declared mem =>
    rcases List.mem_append.mp mem with mem | mem
    · cases hshape : decl.shape with
      | interface superclass refs typeParameters =>
        rw [hshape] at mem
        obtain rfl := Option.mem_toList.mp mem
        exact absurd (.superclass declared hshape) (h.inside hd)
      | category extended refs =>
        rw [hshape] at mem
        obtain rfl := List.mem_singleton.mp mem
        exact absurd (.extended declared hshape) (h.inside hd)
      | property getter setter isStatic isOptional =>
        rw [hshape] at mem
        exact .inr ⟨decl, getter, setter, isStatic, isOptional, declared, hshape, mem⟩
      | function | record | «variable» | enumeration | enumConstant | protocol | method =>
        rw [hshape] at mem
        cases mem
    · obtain ⟨refs, hrefs, mem⟩ := List.mem_flatMap.mp mem
      have hcontainer := Option.mem_toList.mp hrefs
      rw [MemberRefs.all, List.append_assoc] at mem
      rcases List.mem_append.mp mem with mem | mem
      · exact absurd (.protocol declared hcontainer mem) (h.inside hd)
      · exact .inl ⟨decl, refs, declared, hcontainer, mem⟩

/-- A member is under construction only inside of the container that lists it. -/
theorem MembersInside.mem_of_nested (h : unit.MembersInside) {s : DeclRef} {stack : List DeclRef}
    (hnested : Assembly.Nested unit (s :: stack)) (hmem : d ∈ s :: stack) (hd : unit.IsMember d)
    (hlists : unit.Lists c d) : c ∈ stack := by
  induction stack generalizing s d with
  | nil =>
    cases hnested with
    | top declared htop =>
      -- the outermost construction is none of a member
      obtain rfl := List.mem_singleton.mp hmem
      obtain ⟨decl, hdecl, hmember⟩ := hd
      obtain rfl := Option.some.inj (declared.symm.trans hdecl)
      cases htop.symm.trans hmember
  | cons s' stack ih =>
    cases hnested with
    | inside outer asks _ =>
      rcases List.mem_cons.mp hmem with rfl | hmem
      · rcases h.of_asks hd asks with hlists' | ⟨decl, _, _, _, _, hdecl, hshape, haccessor⟩
        · obtain rfl := h.once hd hlists hlists'
          exact List.mem_cons_self
        · -- the property around an accessor is a member of the same container
          have hproperty : unit.IsMember s' := ⟨decl, hdecl, by rw [hshape]; rfl⟩
          exact List.mem_cons_of_mem s' (ih outer List.mem_cons_self hproperty
            (h.accessors hdecl hshape haccessor hlists))
      · exact List.mem_cons_of_mem s' (ih outer hmem hd hlists)

/-- What a container lists is a member, if it is declared at all. -/
theorem MembersInside.isMember (h : unit.MembersInside) (hlists : unit.Lists c d)
    {decl : Declaration} (hdecl : unit.declaration? d = some decl) : unit.IsMember d := by
  obtain ⟨container, refs, hc, hrefs, hmem⟩ := hlists
  refine ⟨decl, hdecl, ?_⟩
  have hkind : decl.shape.entityKind = .method ∨ decl.shape.entityKind = .property := by
    rcases List.mem_append.mp hmem with hmem | hmem
    · exact .inl (h.methods hc hrefs hmem hdecl)
    · exact .inr (h.properties hc hrefs hmem hdecl)
  cases hshape : decl.shape with
  | method | property => rfl
  | _ =>
    rw [hshape] at hkind
    rcases hkind with hkind | hkind <;> cases hkind

/-- A container that has come to its members finds none of them under construction. -/
theorem MembersInside.not_mem_of_nested (h : unit.MembersInside) {stack : List DeclRef}
    (hnested : Assembly.Nested unit (c :: stack)) (hlists : unit.Lists c d) : d ∉ c :: stack := by
  intro hmem
  have hdeclared : ∃ decl, unit.declaration? d = some decl := by
    rcases List.mem_cons.mp hmem with rfl | hmem
    · obtain ⟨decl, -, hc, -⟩ := hlists
      exact ⟨decl, hc⟩
    · exact hnested.declared hmem
  obtain ⟨decl, hdecl⟩ := hdeclared
  exact hnested.head_not_mem (h.mem_of_nested hnested hmem (h.isMember hlists hdecl) hlists)

end SourceUnit

end InteropGraph
