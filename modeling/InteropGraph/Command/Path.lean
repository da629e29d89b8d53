import InteropGraph.Text.Basic

/-!
# Paths

A path is a text with slashes. Its parts are the texts between them; empty parts do not count, and
neither does a part `.`, except at the beginning.
-/

namespace InteropGraph.Path

/-- Whether a path starts from the root. -/
def isAbsolute (path : String) : Bool :=
  path.toList.head? = some '/'

/-- The parts of a path, in reverse, each with the text before it. -/
def partsBefore (before : List Char) : List Char → List Char → List (List Char × List Char)
  | part, [] => [(before, part.reverse)]
  | part, c :: s =>
    if c = '/' then (before, part.reverse) :: partsBefore (c :: (part ++ before)) [] s
    else partsBefore before (c :: part) s

/-- Whether a part counts. The first one is known by the empty text before it. -/
def counts (p : List Char × List Char) : Bool :=
  p.2 ≠ [] && (p.2 ≠ ['.'] || p.1 = [])

/-- The last part of a path that counts, and the text before it in reverse. -/
def last? (path : String) : Option (List Char × List Char) :=
  ((partsBefore [] [] path.toList).filter counts).getLast?

/-- The text of a path, given in reverse, without the slashes and `.` parts at its end. -/
def dropEnd : List Char → List Char
  | ['/'] => ['/']
  | '/' :: s => dropEnd s
  | '.' :: '/' :: s => dropEnd ('/' :: s)
  | s => s

/-- The directory that a path names a part of; nothing for the root and the empty path. -/
def parent? (path : String) : Option String :=
  (last? path).map fun (before, _) => String.ofList (dropEnd before).reverse

/-- The name at the end of a path. -/
def name? (path : String) : Option String :=
  match last? path with
  | some (_, part) =>
    if part = ['.'] ∨ part = ['.', '.'] then none else some (String.ofList part)
  | none => none

/-- A name before its last dot, and the text after that dot. A dot at the beginning does not
count. -/
def splitName (name : String) : String × Option String :=
  let reversed := name.toList.reverse
  match Text.cut '.' reversed with
  | (_, none) | (_, some []) => (name, none)
  | (after, some before) => (String.ofList before.reverse, some (String.ofList after.reverse))

/-- The name at the end of a path without its extension. -/
def stem? (path : String) : Option String :=
  (name? path).map fun n => (splitName n).1

/-- What follows the last dot in the name at the end of a path. -/
def extension? (path : String) : Option String :=
  (name? path).bind fun n => (splitName n).2

/-- The path `other` as seen from the directory `base`. -/
def join (base other : String) : String :=
  if isAbsolute other ∨ base.isEmpty then other
  else if base.toList.getLast? = some '/' then base ++ other
  else base ++ "/" ++ other

/-- The path with another name at its end. -/
def withName (path name : String) : String :=
  match name? path with
  | some _ => join ((parent? path).getD "") name
  | none => join path name

end InteropGraph.Path
