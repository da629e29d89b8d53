import InteropGraph.Naming.Renames
import InteropGraph.Naming.Tokens

/-!
# Names of entities

`entityNames` and `methodNames` give the bridge name, the argument labels and the constructor
tokens of an entity, from its native name and the rename table.
-/

namespace InteropGraph.Naming

/-- The names derived for one entity. -/
structure Names where
  bridgeName : String
  labels : List String
  tokens : List String
  renamed : Bool
deriving DecidableEq, Repr

/-- The names of an entity that is no method: the first part of the resolved name is the bridge
name, the others are labels. -/
def entityNames (table : Renames) (name owner : String) : Names :=
  let resolved := table.resolve name owner
  let (bridgeName, labels) :=
    match selectorParts resolved.name with
    | first :: labels => (first, labels)
    | [] => (name, [])
  { bridgeName, labels, tokens := [], renamed := resolved.found && bridgeName ≠ name }

/-- The names of a constructor with these tokens. -/
def constructorNames (tokens : List String) : Names :=
  { bridgeName := constructorName, labels := tokens, tokens, renamed := false }

/-- The bridge name that the parts of a selector make, with the parts as labels. -/
def joinedNames (parts : List (List Char)) : Names :=
  { bridgeName := String.ofList (camelJoin parts), labels := parts.map String.ofList, tokens := [],
    renamed := false }

/-- The names of a method without a rename entry. A trailing error parameter drops the last part,
but a method keeps its first part as its name. -/
def defaultMethodNames (selector : String) (hasErrorParam : Bool) : Names :=
  if methodFamily selector = .init then
    constructorNames (constructorTokens selector hasErrorParam)
  else
    let parts := partsOf selector.toList
    match dropLastIf hasErrorParam parts with
    | [] => { joinedNames [] with bridgeName := String.ofList (parts.head?.getD []) }
    | kept => joinedNames kept

/-- The names that a resolved rename in colon style gives to a method. -/
def renamedMethodNames (name : String) : Names :=
  match partsOf name.toList with
  | first :: labels =>
    if String.ofList first = constructorName then constructorNames (labels.map String.ofList)
    else joinedNames (first :: labels)
  | [] => joinedNames []

/-- The names of a method with the given selector in `owner`. It counts as renamed if the rename
table changes its bridge name or its labels. -/
def methodNames (table : Renames) (selector owner : String) (hasErrorParam : Bool) : Names :=
  let byDefault := defaultMethodNames selector hasErrorParam
  let resolved := table.resolve selector owner
  if resolved.found then
    let names := renamedMethodNames resolved.name
    { names with
      renamed := names.bridgeName ≠ byDefault.bridgeName || names.labels ≠ byDefault.labels }
  else byDefault

end InteropGraph.Naming
