import InteropGraph.Command.Disk
import InteropGraph.Command.Path

/-!
# A disk in memory

`Files` is a working directory with all files below it. Nothing is known of what lies outside of it,
except for the null device, which is empty and forgets what is written to it.
-/

namespace InteropGraph

/-- The parts of the name of a file, from the working directory. -/
abbrev FileName := List String

/-- Files by name. -/
abbrev Files := List (FileName × String)

namespace Files

/-- Where a path leads. -/
inductive Place where
  | file (name : FileName)
  | directory (name : FileName)
  /-- There is nothing of this name in an existing directory. -/
  | absent (name : FileName)
  /-- A directory that is not below the working directory. -/
  | outside
deriving DecidableEq, Repr

/-- What a name in the working directory stands for. A directory exists if there is a file below
it. -/
def placeOf (files : Files) (name : FileName) : Place :=
  if (files.lookup name).isSome then .file name
  else if name = [] ∨ files.any fun f => name.isPrefixOf f.1 then .directory name
  else .absent name

/-- Follows one part of a path. -/
def follow (files : Files) (part : String) : Place → Except DiskFailure Place
  | .file _ => .error .notDirectory
  | .absent _ => .error .missing
  | .outside => if part ∈ ["", ".", ".."] then .ok .outside else .error .missing
  | .directory name =>
    if part = "" ∨ part = "." then .ok (.directory name)
    else if part = ".." then
      .ok (if name = [] then .outside else .directory name.dropLast)
    else .ok (files.placeOf (name ++ [part]))

/-- Follows a path. -/
def find (files : Files) (path : String) : Except DiskFailure Place :=
  if path.isEmpty then .error .missing
  else
    let start := if Path.isAbsolute path then .outside else .directory []
    ((Text.split '/' path.toList).map String.ofList).foldlM (fun place part =>
      files.follow part place) start

/-- The file that is always there, empty when it is read. -/
def nullDevice : String := "/dev/null"

/-- The text of a file. Only a place that holds a file can be read. -/
def read (files : Files) (path : String) : Except DiskFailure String :=
  if path = nullDevice then .ok ""
  else do
    match ← files.find path with
    | .file name => .ok ((files.lookup name).getD "")
    | .absent _ => .error .missing
    | _ => .error .directory

/-- The files with a text under a name. -/
def set (files : Files) (name : FileName) (text : String) : Files :=
  (name, text) :: files.filter (·.1 ≠ name)

/-- The files after a text has been written to a path. A path with a slash at its end names no
file. -/
def write (files : Files) (path text : String) : Except DiskFailure Files :=
  if path = nullDevice then .ok files
  else do
    let trimmed := Text.dropTrailing (· = '/') path.toList
    let place ← files.find (if trimmed = [] then path else String.ofList trimmed)
    match place with
    | .file name | .absent name =>
      if trimmed = path.toList then .ok (files.set name text) else .error .directory
    | _ => .error .directory

/-- The parts of a plain file name. -/
def nameOf (path : String) : FileName :=
  ((Text.split '/' path.toList).map String.ofList).filter fun part => part ≠ "" ∧ part ≠ "."

/-- The disk with the given files, of which a later one replaces an earlier one. -/
def ofList (files : List (String × String)) : Files :=
  files.foldl (fun fs f => fs.set (nameOf f.1) f.2) []

/-- The files of `files` that are not the same in `before`. -/
def changes (before files : Files) : List (String × String) :=
  (files.filter fun f => before.lookup f.1 ≠ some f.2).map fun f => ("/".intercalate f.1, f.2)

end Files

instance : Disk (StateM Files) where
  read path := do return (← get).read path
  write path text := do
    match (← get).write path text with
    | .ok files =>
      set files
      return .ok ()
    | .error e => return .error e

end InteropGraph
