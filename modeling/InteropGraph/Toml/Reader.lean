import InteropGraph.Toml.Token

/-!
# Reading TOML text

A text is a list of assignments, each of a value to a path of keys, under headers that give the
beginning of the path. `Toml.parse?` reads it as an object. Values are texts, lists and tables;
numbers, truth values, dates and headers of table lists have no place in a settings file and are
refused.
-/

namespace InteropGraph.Toml

/-- A value and the keys that lead to it. -/
structure Assignment where
  path : List String
  value : Json

/-! ### Tables -/

/-- `members` with the value at the end of a path, or that a table there, changed by `f`. -/
def alter (f : Option Json → Json) : List String → Json.Members → Json.Members
  | [], m => m
  | [k], m => change m k (f (m.lookup k))
  | k :: path, m =>
    let inner := match m.lookup k with
      | some (.object inner) => inner
      | _ => []
    change m k (.object (alter f path inner))
where
  /-- `m` with `j` as the value of `k`. -/
  change (m : Json.Members) (k : String) (j : Json) : Json.Members :=
    if m.any (·.1 = k) then m.map fun e => if e.1 = k then (k, j) else e else m ++ [(k, j)]

/-- `members` with a value at the end of a path. -/
def assign (m : Json.Members) (a : Assignment) : Json.Members :=
  alter (fun _ => a.value) a.path m

/-- `members` with a table at the end of a path. -/
def addTable (m : Json.Members) (path : List String) : Json.Members :=
  alter (·.getD (.object [])) path m

/-- Whether no path leads to or through the end of another. -/
def Separate (paths : List (List String)) : Prop :=
  paths.Pairwise fun p q => ¬ p <+: q ∧ ¬ q <+: p

instance (paths : List (List String)) : Decidable (Separate paths) :=
  inferInstanceAs (Decidable (List.Pairwise _ _))

/-- The table with the given assignments. -/
def table? (assignments : List Assignment) : Option Json :=
  if Separate (assignments.map Assignment.path) then some (.object (assignments.foldl assign []))
  else none

/-! ### Values -/

/-- A list or a table that is still open, with its parts so far in reverse. -/
inductive Frame where
  | list (done : List Json)
  | table (done : List Assignment) (key : List String)

/-- What may come next. -/
inductive Expect where
  /-- A value. -/
  | value
  /-- An item of a list, or its end. -/
  | item
  /-- The first key of a table, or its end. -/
  | firstKey
  /-- A key of a table, after the assignments and the beginning of a path. -/
  | key (done : List Assignment) (path : List String)
  /-- The rest of a path, or the sign after it. -/
  | afterKey (done : List Assignment) (path : List String)
  /-- A separator or the end of what is open, after a value in it. -/
  | afterValue (value : Json)

/-- The key that a token is. -/
def Token.key? : Token → Option String
  | .word s => some s
  | .quoted s true => some s
  | _ => none

/-- Reads tokens into one value; `stack` holds what is open. Inside a list, and only there, a value
may be spread over lines. -/
def assemble? (stack : List Frame) : Expect → List Token → Option Json
  | .afterValue j, [] => if stack.isEmpty then some j else none
  | _, [] => none
  | .value, t :: ts => opening stack t ts
  | .item, .newline :: ts => assemble? stack .item ts
  | .item, .closeList :: ts =>
    match stack with
    | .list done :: stack => assemble? stack (.afterValue (.list done.reverse)) ts
    | _ => none
  | .item, t :: ts => opening stack t ts
  | .firstKey, .closeTable :: ts => assemble? stack (.afterValue (.object [])) ts
  | .firstKey, t :: ts => t.key?.bind fun k => assemble? stack (.afterKey [] [k]) ts
  | .key done path, t :: ts =>
    t.key?.bind fun k => assemble? stack (.afterKey done (path ++ [k])) ts
  | .afterKey done path, .dot :: ts => assemble? stack (.key done path) ts
  | .afterKey done path, .equals :: ts => assemble? (.table done path :: stack) .value ts
  | .afterValue j, .newline :: ts =>
    match stack with
    | .list _ :: _ => assemble? stack (.afterValue j) ts
    | _ => none
  | .afterValue j, .comma :: ts =>
    match stack with
    | .list done :: stack => assemble? (.list (j :: done) :: stack) .item ts
    | .table done path :: stack => assemble? stack (.key (⟨path, j⟩ :: done) []) ts
    | [] => none
  | .afterValue j, .closeList :: ts =>
    match stack with
    | .list done :: stack => assemble? stack (.afterValue (.list (j :: done).reverse)) ts
    | _ => none
  | .afterValue j, .closeTable :: ts =>
    match stack with
    | .table done path :: stack =>
      (table? (⟨path, j⟩ :: done).reverse).bind fun t => assemble? stack (.afterValue t) ts
    | _ => none
  | _, _ :: _ => none
where
  /-- Reads a value that begins with the token `t`. -/
  opening (stack : List Frame) (t : Token) (ts : List Token) : Option Json :=
    match t with
    | .quoted s _ => assemble? stack (.afterValue (.text s)) ts
    | .openList => assemble? (.list [] :: stack) .item ts
    | .openTable => assemble? stack .firstKey ts
    | _ => none

/-! ### Lines -/

/-- The lines of a text; a line does not end inside brackets. -/
def lines (depth : Nat) : List Token → List (List Token)
  | [] => [[]]
  | t :: ts =>
    if t = .newline ∧ depth = 0 then [] :: lines 0 ts
    else
      let depth :=
        if t = .openList ∨ t = .openTable then depth + 1
        else if t = .closeList ∨ t = .closeTable then depth - 1
        else depth
      match lines depth ts with
      | line :: rest => (t :: line) :: rest
      | [] => [[t]]

/-- Keys with dots between them. -/
def path? : List Token → Option (List String)
  | [t] => t.key?.map ([·])
  | t :: .dot :: ts => do return (← t.key?) :: (← path? ts)
  | _ => none

/-- A line with something on it: the header of a section or an assignment. -/
inductive Line where
  | header (path : List String)
  | assignment (a : Assignment)

/-- Reads a line that is not empty. -/
def line? (line : List Token) : Option Line :=
  match line with
  | .openList :: ts =>
    if ts.getLast? = some .closeList then (path? ts.dropLast).map .header else none
  | _ => do
    let path ← path? (line.takeWhile (· ≠ .equals))
    let value ← assemble? [] .value ((line.dropWhile (· ≠ .equals)).drop 1)
    return .assignment ⟨path, value⟩

/-! ### Sections -/

/-- The assignments under one header; the path of the header comes before theirs. -/
structure Section where
  name : List String
  assignments : List Assignment

/-- The full paths of the keys that a section assigns. -/
def Section.paths (s : Section) : List (List String) :=
  s.assignments.map fun a => s.name ++ a.path

/-- The sections that lines make; those before the first header have the empty name. -/
def sections (current : Section) : List Line → List Section
  | [] => [current]
  | .header path :: ls => current :: sections ⟨path, []⟩ ls
  | .assignment a :: ls =>
    sections { current with assignments := current.assignments ++ [a] } ls

/-- Whether every table is made by one header or by the assignments of one section, and no value is
taken for a table. -/
def Consistent (sections : List Section) : Prop :=
  (sections.map Section.name).Nodup ∧ Separate (sections.flatMap Section.paths) ∧
    ∀ s ∈ sections, ∀ t ∈ sections, ∀ p ∈ s.paths,
      ¬ p <+: t.name ∧ (t.name <+: p → t.name <+: s.name)

instance (sections : List Section) : Decidable (Consistent sections) :=
  inferInstanceAs (Decidable (_ ∧ _ ∧ _))

/-- `members` with the table of a section. -/
def addSection (m : Json.Members) (s : Section) : Json.Members :=
  (s.assignments.map fun a => ⟨s.name ++ a.path, a.value⟩).foldl assign (addTable m s.name)

/-- Reads a text as one table. -/
def parse? (s : String) : Option Json := do
  let tokens ← tokens? s.toList
  let lines ← ((lines 0 tokens).filter (· ≠ [])).mapM line?
  let sections := sections ⟨[], []⟩ lines
  if Consistent sections then return .object (sections.foldl addSection []) else none

end InteropGraph.Toml
