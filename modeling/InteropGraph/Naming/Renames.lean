import InteropGraph.Text.Basic

/-!
# Rename tables

A table from native names to the bridge names that replace them. A key is a native name or
`Owner.nativeName`; a value is written as `name`, `name(a:b:)` or `name:a:b:`, with an optional
`Module.` in front.
-/

namespace InteropGraph.Naming

/-- The bridge name of every constructor. -/
def constructorName : String := "constructor"

/-- Bridge names by native name; the first entry of a key counts. -/
abbrev Renames := List (String × String)

/-- `table` with `value` as the entry of `key`. -/
def Renames.set (table : Renames) (key value : String) : Renames :=
  (key, value) :: table.filter (·.1 ≠ key)

/-- `table` with the entries of `others` whose keys it lacks. -/
def Renames.fill (table others : Renames) : Renames :=
  table ++ others.filter fun e => (table.lookup e.1).isNone

/-- The colon style of a rename value: `Module.name(a:b:)` is `name:a:b:`. -/
def colonStyle (value : List Char) : List Char :=
  let (head, inner) := Text.cut '(' (Text.trim value)
  let base := (Text.cut '.' head).2.getD head
  match inner with
  | none => base
  | some labels =>
    match Text.dropTrailing (· = ')') labels with
    | [] => base
    | labels => base ++ ':' :: labels

/-- Writes a leading `init` as the name of constructors. -/
def markConstructor (name : List Char) : List Char :=
  match "init".toList.isPrefixOf? name with
  | some [] => constructorName.toList
  | some (':' :: labels) => constructorName.toList ++ ':' :: labels
  | _ => name

/-- The name that a rename value stands for, in colon style. -/
def normalizeRename (value : String) : String :=
  String.ofList (markConstructor (colonStyle value.toList))

/-- A name after a look-up in the rename table. -/
structure Resolved where
  name : String
  /-- The table has an entry for the name. -/
  found : Bool
deriving DecidableEq, Repr

/-- The entry for `native` in `owner`, or else for `native` alone. -/
def Renames.entry? (table : Renames) (name owner : String) : Option String :=
  if owner.isEmpty then table.lookup name
  else (table.lookup (owner ++ "." ++ name)).or (table.lookup name)

/-- Looks `name` up in the rename table; a name without an entry stays as it is. -/
def Renames.resolve (table : Renames) (name owner : String) : Resolved :=
  match table.entry? name owner with
  | some value => ⟨normalizeRename value, true⟩
  | none => ⟨name, false⟩

end InteropGraph.Naming
