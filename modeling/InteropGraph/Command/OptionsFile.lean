import InteropGraph.Command.Disk
import InteropGraph.Command.Path
import InteropGraph.Options
import InteropGraph.Toml.Reader
import InteropGraph.Yaml.Node

/-!
# Options files

Options stand in a TOML file, which may name a YAML file with further renames. Of two renames of one
name, that of the options file counts.
-/

namespace InteropGraph

/-- Reads options from TOML text. -/
def Options.ofToml? (text : String) : Option Options := do
  Options.ofJson? (← Toml.parse? text)

/-- Reads a map of texts; of two entries with one key the later one counts. A text of blanks is an
empty map. -/
def Naming.Renames.ofYaml? (text : String) : Option Naming.Renames :=
  if text.toList.all Text.isBlank then some []
  else
    match Yaml.Node.parse? text with
    | some (.map entries) =>
      entries.foldlM (fun table (k, n) => do return table.set (← k.text?) (← n.text?)) []
    | some n => if n.isEmpty then some [] else none
    | none => none

namespace Options

/-- Why options cannot be loaded. -/
inductive LoadFailure where
  | unreadable (path : String) (failure : DiskFailure)
  | invalidOptions (path : String)
  | invalidRenames (path : String)
deriving DecidableEq, Repr

/-- What is said of options that cannot be loaded. -/
def LoadFailure.message : LoadFailure → String
  | .unreadable path failure => s!"I/O error reading {path}: {failure.message}"
  | .invalidOptions path => s!"invalid config {path}: not a table of known settings"
  | .invalidRenames path => s!"invalid rename file {path}: not a map of texts"

variable {m : Type → Type} [Monad m] [Disk m]

/-- Reads a file, or stops loading. -/
def readFile (path : String) : ExceptT LoadFailure m String := do
  match ← (Disk.read path : m _) with
  | .ok text => return text
  | .error e => throw (.unreadable path e)

/-- Loads an options file and the rename file that it names, as seen from its directory. -/
def load (path : String) : ExceptT LoadFailure m Options := do
  let text ← readFile path
  match ofToml? text with
  | none => throw (.invalidOptions path)
  | some o =>
    match o.renameFile with
    | none => return o
    | some file =>
      let file := Path.join ((Path.parent? path).getD ".") file
      match Naming.Renames.ofYaml? (← readFile file) with
      | none => throw (.invalidRenames file)
      | some renames => return { o with renames := o.renames.fill renames }

end Options

end InteropGraph
