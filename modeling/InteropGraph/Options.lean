import InteropGraph.Json.Basic
import InteropGraph.Naming.Renames
import InteropGraph.Policy
import InteropGraph.Source.Json

/-!
# Options and settings

`Options` are what a user states; `Settings` are the same with the policy compiled, as the rest of
the program uses them.
-/

namespace InteropGraph

/-- What a user states for one run. -/
structure Options where
  /-- The platform whose availability counts. -/
  platform : String
  /-- The version of the platform to build for, which decides on introduction and deprecation. -/
  targetVersion : Version
  /-- The version of the tools, which decides on obsolescence. -/
  toolchainVersion : Version
  /-- The interface whose double pointer marks a trailing error parameter. -/
  errorInterface : String
  inclusions : List String
  exclusions : List String
  renames : Naming.Renames
  /-- A file with further renames. -/
  renameFile : Option String

namespace Options

/-- The options of a run that sets none. -/
protected def default : Options where
  platform := "ios"
  targetVersion := .ofNumbers 13 0 0
  toolchainVersion := .ofNumbers 15 0 0
  errorInterface := "NSError"
  inclusions := []
  exclusions := []
  renames := []
  renameFile := none

/-- The names of the settings in an options file. -/
def parts : List String :=
  ["platform", "target_version", "toolchain_version", "error_interface", "include", "exclude",
    "renames", "rename_file"]

/-- Reads a table of texts; of two entries with one key the later one counts. -/
def renames? : Json → Option Naming.Renames
  | .object members =>
    members.foldlM (fun table (key, j) => j.text?.map fun value => table.set key value) []
  | _ => none

/-- Reads options; what is missing has its default, and what is not known is refused. -/
def ofJson? (j : Json) : Option Options := do
  let m ← j.members? parts
  if m.all fun (key, _) => key ∈ parts then
    return {
      platform := ← m.optional "platform" Json.text? Options.default.platform
      targetVersion := ← m.optional "target_version" Version.ofJson? Options.default.targetVersion
      toolchainVersion :=
        ← m.optional "toolchain_version" Version.ofJson? Options.default.toolchainVersion
      errorInterface := ← m.optional "error_interface" Json.text? Options.default.errorInterface
      inclusions := ← m.optional "include" (Json.listOf? Json.text?) []
      exclusions := ← m.optional "exclude" (Json.listOf? Json.text?) []
      renames := ← m.optional "renames" renames? []
      renameFile := ← m.optional "rename_file" (Json.orNull? Json.text?) none }
  else none

/-- Options with all their settings. -/
def toJson (o : Options) : Json :=
  .object [("platform", .text o.platform), ("target_version", o.targetVersion.toJson),
    ("toolchain_version", o.toolchainVersion.toJson), ("error_interface", .text o.errorInterface),
    ("include", .ofList Json.text o.inclusions), ("exclude", .ofList Json.text o.exclusions),
    ("renames", .object (o.renames.map fun (key, value) => (key, .text value))),
    ("rename_file", .ofOption Json.text o.renameFile)]

end Options

/-- The options of one run in the form in which they are used. -/
structure Settings where
  platform : String
  targetVersion : Version
  toolchainVersion : Version
  errorInterface : String
  renames : Naming.Renames
  policy : Policy

namespace Settings

/-- The settings of the default options, under which everything is included. -/
protected def default : Settings where
  platform := Options.default.platform
  targetVersion := Options.default.targetVersion
  toolchainVersion := Options.default.toolchainVersion
  errorInterface := Options.default.errorInterface
  renames := Options.default.renames
  policy := .all

/-- The settings of a run; they differ from the options in the patterns, which are read. -/
def ofOptions (o : Options) : Except Policy.Refusal Settings := do
  let policy ← Policy.parse o.inclusions o.exclusions
  return { platform := o.platform, targetVersion := o.targetVersion,
           toolchainVersion := o.toolchainVersion, errorInterface := o.errorInterface,
           renames := o.renames, policy }

/-- Replaces the target version. -/
def withTargetVersion (s : Settings) (v : Version) : Settings :=
  { s with targetVersion := v }

/-- Adds an entry to the rename table. -/
def withRename (s : Settings) (key value : String) : Settings :=
  { s with renames := s.renames.set key value }

end Settings

end InteropGraph
