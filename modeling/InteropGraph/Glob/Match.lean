import InteropGraph.Glob.Pattern

/-!
# Matching globs

A pattern is compiled to a sequence of steps, and a text is matched byte by byte on its UTF-8
form. A step takes the set of places that have been reached to the set of places behind it; a place
is the rest of the text from there on, and sets of places are kept with the longest rest first.
-/

namespace InteropGraph.Glob

/-- A step of a compiled pattern. -/
inductive Step where
  /-- One byte in one of the ranges, or in none of them if `negated`. -/
  | one (negated : Bool) (ranges : List (UInt8 × UInt8))
  /-- Any bytes. -/
  | many
  /-- Any of the branches. -/
  | either (branches : List (List Step))

/-! ### Compiling -/

/-- The UTF-8 form of a character. -/
def utf8 (c : Char) : List UInt8 :=
  c.toString.toUTF8.toList

/-- One byte that is `b`. -/
def byte (b : UInt8) : Step :=
  .one false [(b, b)]

/-- One byte, whatever it is. -/
def anyByte : Step :=
  .one true []

/-- The separator of paths. -/
def slash : Step :=
  byte '/'.toNat.toUInt8

/-- The byte ranges for a range of characters in a class: the bytes of both ends, and the bytes
between the last one of the lower and the first one of the upper end. -/
def byteRanges (first last : Char) : List (UInt8 × UInt8) :=
  if first = last then (utf8 first).map fun b => (b, b)
  else
    match (utf8 first).reverse, utf8 last with
    | a :: before, b :: after =>
      (before.reverse.map fun x => (x, x)) ++ (a, b) :: after.map fun x => (x, x)
    | _, _ => []

mutual

/-- The steps for one token. Branches without any step do not count. -/
def compileToken : Token → List Step
  | .literal c => (utf8 c).map byte
  | .anyByte => [anyByte]
  | .anyBytes => [.many]
  | .leadingDirs => [.either [[], [slash], [.many, slash]]]
  | .trailingDirs => [slash, .many]
  | .innerDirs => [.either [[slash], [slash, .many, slash]]]
  | .oneOf negated ranges => [.one negated (ranges.flatMap fun r => byteRanges r.1 r.2)]
  | .alternatives branches =>
    match compileBranches branches with
    | [] => []
    | branches => [.either branches]

/-- The steps of tokens that follow each other. -/
def compileTokens : List Token → List Step
  | [] => []
  | t :: ts => compileToken t ++ compileTokens ts

/-- The steps of each alternative; one that has none is left out. -/
def compileBranches : List (List Token) → List (List Step)
  | [] => []
  | b :: bs =>
    match compileTokens b with
    | [] => compileBranches bs
    | steps => steps :: compileBranches bs

end

/-- The steps of a pattern. A double star alone matches everything. -/
def compile : List Token → List Step
  | [.leadingDirs] => [.many]
  | tokens => compileTokens tokens

/-! ### Matching -/

/-- Places in a text: the rests of the text from there on, longest first. -/
abbrev Places := List (List UInt8)

/-- The places of both sets. -/
def Places.union : Places → Places → Places
  | [], qs => qs
  | ps, [] => ps
  | p :: ps, q :: qs =>
    if p.length = q.length then p :: union ps qs
    else if q.length < p.length then p :: union ps (q :: qs)
    else q :: union (p :: ps) qs

/-- The rests of a text, itself first. -/
def tails : List UInt8 → Places
  | [] => [[]]
  | b :: s => (b :: s) :: tails s

/-- Whether a byte is in one of the ranges. -/
def inRange (ranges : List (UInt8 × UInt8)) (b : UInt8) : Bool :=
  ranges.any fun r => r.1 ≤ b && b ≤ r.2

mutual

/-- The places behind one step. -/
def Step.run : Step → Places → Places
  | .one negated ranges, ps =>
    ps.filterMap fun
      | b :: s => if inRange ranges b != negated then some s else none
      | [] => none
  | .many, ps =>
    match ps with
    | [] => []
    | p :: _ => tails p
  | .either branches, ps => runBranches branches ps

/-- The places behind a sequence of steps. -/
def runSteps : List Step → Places → Places
  | [], ps => ps
  | s :: steps, ps => runSteps steps (s.run ps)

/-- The places behind any of the branches. -/
def runBranches : List (List Step) → Places → Places
  | [], _ => []
  | b :: bs, ps => (runSteps b ps).union (runBranches bs ps)

end

end Glob

/-- A compiled glob pattern. -/
structure Glob where
  steps : List Glob.Step

namespace Glob

/-- The pattern that a text spells. -/
def ofPattern (pattern : String) : Except Refusal Glob :=
  (parse pattern).map fun tokens => ⟨compile tokens⟩

/-- Whether the pattern matches the whole text. -/
def isMatch (g : Glob) (text : String) : Bool :=
  (runSteps g.steps [text.toUTF8.toList]).any List.isEmpty

end Glob

end InteropGraph
