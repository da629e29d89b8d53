import InteropGraph.Pass.Draft

/-!
# Accessors and inheritance

A class may declare a property for what its base or a protocol declares as a method. For every
listed interface, `Draft.alignAccessors`

- adds a property to each immediate ancestor that only has the bare methods, around those methods;
- removes the static methods that a class property above already exposes;
- reports the instance methods that share bridge name and number of parameters.
-/

namespace InteropGraph

namespace Graph

/-- The selector of a property's setter by convention: `setName:` for `name`. -/
def defaultSetter (name : String) : String :=
  match name.toList with
  | [] => "set:"
  | c :: s => "set" ++ String.ofList (c.toUpper :: s) ++ ":"

/-- The selectors of the getter and of the setter of a property. -/
def accessorSelectors? (g : Graph) (property : EntityId) : Option (String × String) :=
  match g.entity? property with
  | some e =>
    match e.detail with
    | .property getter setter =>
      let nameOf (id : Option EntityId) := (id.bind g.entity?).map Entity.name
      some ((nameOf getter).getD e.name, (nameOf setter).getD (defaultSetter e.name))
    | _ => none
  | none => none

/-- The first method of a list with the given selector that is not known as an accessor. -/
def bareMethod? (g : Graph) (methods : List EntityId) (selector : String) : Option EntityId :=
  methods.find? fun m => (g.entity? m).any fun e => e.name = selector && !e.flags.accessor

/-- Whether one of the properties has the given native name. -/
def hasProperty (g : Graph) (properties : List EntityId) (name : String) : Bool :=
  properties.any fun p => (g.entity? p).any fun e => e.name = name

/-- The immediate ancestors of a container: its base and its protocols. -/
def ancestors (g : Graph) (id : EntityId) : List EntityId :=
  ((g.entity? id).bind Entity.base?).toList ++ ((g.members? id).map Members.protocols).getD []

end Graph

/-- A property around accessor methods, named like `template`. -/
def Entity.propertyAround (template : Entity) (module : String) (getter setter : Option EntityId)
    (isOptional : Bool) : Entity :=
  { Entity.plain template.name module (.property getter setter) with
    bridgeName := template.bridgeName
    renamed := template.renamed
    flags := { optional := isOptional } }

namespace Draft

/-- Adds a property like `template` to an ancestor that lists the given accessors as bare
methods. -/
def wrapAccessors (d : Draft) (ancestor : EntityId) (module : String) (template : Entity)
    (getter setter : Option EntityId) : Draft :=
  let accessors := getter.toList ++ setter.toList
  let isOptional := accessors.any fun m => (d.graph.entity? m).any (·.flags.optional)
  let marked := accessors.foldl (fun g m =>
    g.modify m fun e => { e with flags := { e.flags with accessor := true } }) d.graph
  let (property, graph) := marked.insert (template.propertyAround module getter setter isOptional)
  { d with
    graph := graph.mapMembers ancestor fun m => { m with
      instanceMethods := m.instanceMethods.filter (· ∉ accessors)
      instanceProperties := graph.sortByName (m.instanceProperties ++ [property]) }
    report := { d.report with addedProperties := d.report.addedProperties + 1 } }

/-- Adds a property like `template` to an ancestor, if that has bare methods with the given
selectors and no such property. -/
def addProperty (template : Entity) (selectors : String × String) (d : Draft)
    (ancestor : EntityId) : Draft :=
  match d.graph.entity? ancestor with
  | none => d
  | some e =>
    match e.members? with
    | none => d
    | some m =>
      if d.graph.hasProperty m.instanceProperties template.name then d
      else
        let getter := d.graph.bareMethod? m.instanceMethods selectors.1
        let setter := d.graph.bareMethod? m.instanceMethods selectors.2
        if getter.isNone && setter.isNone then d
        else d.wrapAccessors ancestor e.module template getter setter

/-- Adds properties like `property` to the ancestors that need one. -/
def alignProperty (ancestors : List EntityId) (d : Draft) (property : EntityId) : Draft :=
  match d.graph.accessorSelectors? property, d.graph.entity? property with
  | some selectors, some template => ancestors.foldl (addProperty template selectors) d
  | _, _ => d

/-- Adds the properties that the ancestors of an interface need. -/
def alignAncestors (d : Draft) (id : EntityId) : Draft :=
  match d.graph.members? id with
  | none => d
  | some m => m.instanceProperties.foldl (alignProperty (d.graph.ancestors id)) d

/-- The selectors of the class properties above an interface. -/
def inheritedAccessors (d : Draft) (id : EntityId) : List String :=
  (d.graph.bases id).flatMap fun base =>
    (((d.graph.members? base).map Members.staticProperties).getD []).flatMap fun p =>
      match d.graph.accessorSelectors? p with
      | some (getter, setter) => [getter, setter]
      | none => []

/-- Removes the static methods of an interface that class properties above it expose. -/
def dropShadowed (d : Draft) (id : EntityId) : Draft :=
  let inherited := d.inheritedAccessors id
  match d.graph.members? id with
  | none => d
  | some m =>
    d.replaceMembers id m { m with
      staticMethods := m.staticMethods.filter fun s =>
        (d.graph.entity? s).all fun e => e.name ∉ inherited }

/-- The names and the numbers of parameters of methods, with their selectors. -/
def methodForms (g : Graph) (methods : List EntityId) : List ((String × Nat) × String) :=
  methods.filterMap fun id => (g.entity? id).map fun e => ((e.bridgeName, e.arity), e.name)

/-- The order of names, and of numbers under one name. -/
def formLe (a b : String × Nat) : Bool :=
  a.1 < b.1 || (a.1 = b.1 && a.2 ≤ b.2)

/-- The instance methods of a container that share name and number of parameters, by both. -/
def overloads (g : Graph) (container : String) (methods : List EntityId) : List Overload :=
  let forms := methodForms g methods
  let groups := (forms.map Prod.fst).eraseDups.mergeSort formLe
  groups.filterMap fun form =>
    let selectors := (forms.filter (·.1 = form)).map Prod.snd
    if 2 ≤ selectors.length then some ⟨container, form.1, form.2, selectors⟩ else none

/-- Reports the instance methods of an interface that share name and number of parameters. -/
def reportOverloads (d : Draft) (id : EntityId) : Draft :=
  match d.graph.entity? id with
  | none => d
  | some e =>
    let found := overloads d.graph e.name ((e.members?.map Members.instanceMethods).getD [])
    { d with report := { d.report with overloads := d.report.overloads ++ found } }

/-- Aligns one interface with its ancestors. -/
def alignInterface (d : Draft) (id : EntityId) : Draft :=
  if d.graph.kind? id = some .interface then
    ((d.alignAncestors id).dropShadowed id).reportOverloads id
  else d

/-- Aligns the listed interfaces with their ancestors, one interface after the other. -/
def alignAccessors (d : Draft) : Draft :=
  d.forListed alignInterface

end Draft

end InteropGraph
