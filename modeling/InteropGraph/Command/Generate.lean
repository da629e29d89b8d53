import InteropGraph.Command.Arguments
import InteropGraph.Command.OptionsFile
import InteropGraph.Graph.Yaml
import InteropGraph.Json.Printer
import InteropGraph.Pipeline
import InteropGraph.Source.Yaml

/-!
# The command `generate`

The command reads a unit, builds its graph with the options that apply, and writes a dump of the
graph and, if wanted, a report. It ends at its first failure; what has been written by then stays.
-/

namespace InteropGraph.Command

/-- Why the command fails. -/
inductive Failure where
  | options (failure : Options.LoadFailure)
  | version (setting : Setting) (invalid : Version.Invalid)
  | policy (refusal : Policy.Refusal)
  | unreadable (path : String) (failure : DiskFailure)
  | invalidUnit
  | clash (clash : Graph.Clash)
  | unwritable (path : String) (failure : DiskFailure)

/-- What a run says when it stops. -/
def Failure.message : Failure → String
  | .options f => s!"Failed to load configuration: {f.message}"
  | .version setting invalid => s!"Invalid --{setting.name}: {invalid.message}"
  | .policy refusal => s!"Failed to prepare configuration: {refusal.message}"
  | .unreadable path f => s!"Failed to read {path}: {f.message}"
  | .invalidUnit => "Failed to parse translation unit: not a unit of declarations and types"
  | .clash c => c.message
  | .unwritable path f => s!"Failed to write {path}: {f.message}"

/-! ### Paths -/

/-- The name of the options file that counts if no other is given. -/
def optionsFileName : String := "bridgemeta.toml"

/-- The options file beside a unit. -/
def optionsFileBeside (unit : String) : String :=
  Path.join ((Path.parent? unit).getD ".") optionsFileName

/-- The dump beside a unit. -/
def dumpBeside (unit : String) (format : Format) : String :=
  Path.withName unit ((Path.stem? unit).getD "unit" ++ ".meta." ++ format.extension)

/-- Whether a unit is written in YAML, which its extension tells. -/
def isYaml (unit : String) : Bool :=
  match Path.extension? unit with
  | some e =>
    let e := String.ofList (e.toList.map Char.toLower)
    e = "yaml" || e = "yml"
  | none => false

/-! ### Texts -/

/-- Reads a unit from the text of its file. -/
def readUnit? (path text : String) : Option SourceUnit :=
  if isYaml path then SourceUnit.ofYaml? text else SourceUnit.ofJsonText? text

/-- The text of a dump. -/
def dumpText (format : Format) (dump : Graph.Dump) : String :=
  match format with
  | .yaml => dump.toYaml.write
  | .json => dump.toJson.pretty

/-- What the user is told at the end, line by line. -/
def summary (b : Bridged) (output : String) : List String :=
  [s!"Built {b.modules.ids.length} entities in {b.modules.length} modules " ++
    s!"({b.report.skipped} skipped, {b.report.failed} failed, {b.report.excluded} excluded, " ++
    s!"{b.report.renamed} renamed)"] ++
  (b.modules.map fun (module, ids) => s!"  {module}: {ids.length}") ++
  (b.report.problems.map fun p =>
    s!"  failed {p.declaration} ({p.module}): " ++ " <- ".intercalate p.chain) ++
  (if b.report.overloads = [] then []
    else [s!"  {b.report.overloads.length} method name collisions left for the emitter"]) ++
  [s!"Wrote {output}"]

/-! ### The command -/

variable {m : Type → Type} [Monad m] [Disk m]

/-- The options file that applies: the one that is given, or else the one beside the unit. -/
def optionsFile? (r : Request) : m (Option String) := do
  match r.get? .config with
  | some path => return some path
  | none =>
    let path := optionsFileBeside r.unit
    return if ← Disk.isFile path then some path else none

/-- The version that an argument gives, or else `fallback`. -/
def versionOr (r : Request) (setting : Setting) (fallback : Version) : Except Failure Version :=
  match r.get? setting with
  | none => .ok fallback
  | some s => (Version.parse s).mapError (.version setting)

/-- The options that apply: those of the options file, with the versions that are given. -/
def options (r : Request) : ExceptT Failure m Options := do
  let o ← match ← (optionsFile? r : m _) with
    | some path => (Options.load path : ExceptT _ m _).adapt .options
    | none => pure .default
  let targetVersion ← versionOr r .targetVersion o.targetVersion
  let toolchainVersion ← versionOr r .toolchainVersion o.toolchainVersion
  return { o with targetVersion, toolchainVersion }

/-- Writes a file, or stops the run. -/
def writeFile (path text : String) : ExceptT Failure m Unit := do
  match ← (Disk.write path text : m _) with
  | .ok () => return
  | .error e => throw (.unwritable path e)

/-- Loads a unit from its file. -/
def loadUnit (path : String) : ExceptT Failure m SourceUnit := do
  match ← (Disk.read path : m _) with
  | .error e => throw (.unreadable path e)
  | .ok text =>
    match readUnit? path text with
    | some u => return u
    | none => throw .invalidUnit

/-- Does what a request asks for; the result is the summary. -/
def generate (r : Request) : ExceptT Failure m (List String) := do
  let settings ← (Settings.ofOptions (← options r)).mapError Failure.policy
  let unit ← loadUnit r.unit
  let b := unit.bridge settings
  if let some c := b.clash? then throw (.clash c)
  let output := (r.get? .output).getD (dumpBeside r.unit r.format)
  writeFile output (dumpText r.format b.dump)
  if let some path := r.get? .report then
    writeFile path b.report.toJson.pretty
  return summary b output

/-! ### Runs -/

/-- What a run of the program shows. -/
structure Outcome where
  code : Nat
  out : String
  err : String
deriving DecidableEq, Repr

/-- What is printed for `--help`. -/
def helpText : String :=
  "Build the metadata graph and write a dump of it

Usage: generate [OPTIONS] <UNIT>

Arguments:
  <UNIT>
          Unit to process (.json, or .yaml/.yml)

Options:
      --config <FILE>
          Configuration file. Defaults to bridgemeta.toml next to the unit, if present
  -o, --output <FILE>
          Where to write the graph dump. Defaults to <UNIT>.meta.<format> next to the unit
      --format <FORMAT>
          yaml (the default) or json
      --target-version <VERSION>
          Deployment target, overriding the configuration
      --toolchain-version <VERSION>
          Toolchain version, overriding the configuration
      --report <FILE>
          Also write the pipeline report as JSON
  -h, --help
          Print help
"

/-- What is printed for `--version`. -/
def versionText : String := "0.1.0\n"

/-- Runs the program with the given arguments. -/
def run (arguments : List String) : m Outcome := do
  match parseArguments arguments with
  | .error .help => return ⟨0, helpText, ""⟩
  | .error .version => return ⟨0, versionText, ""⟩
  | .error (.usage e) => return ⟨2, "", e.message ++ "\n"⟩
  | .ok r =>
    match ← (generate r : ExceptT Failure m _).run with
    | .ok lines => return ⟨0, String.join (lines.map (· ++ "\n")), ""⟩
    | .error e => return ⟨1, "", e.message ++ "\n"⟩

end InteropGraph.Command
