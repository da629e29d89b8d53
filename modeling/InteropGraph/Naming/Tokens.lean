import InteropGraph.Naming.Selector

/-!
# Constructor tokens

The parts of an `init…` selector, as the labels of a constructor: `initWithName:age:` has the
tokens `name` and `age`.
-/

namespace InteropGraph.Naming

/-- How many letters at the start of a token are put into lower case: its run of capitals, less
the one that begins the next word. A lone `s` after the run is no word. -/
def lowerCount (token : List Char) : Nat :=
  let run := (token.takeWhile Char.isUpper).length
  let rest := token.drop run
  if 1 < run ∧ rest ≠ ['s'] ∧ !atWordEnd rest then run - 1 else run

/-- `token` with its first `lowerCount` letters in lower case. -/
def lowerStart (token : List Char) : List Char :=
  (token.take (lowerCount token)).map Char.toLower ++ token.drop (lowerCount token)

/-- `s` with `ending` at its end replaced by `instead`, if something comes before it. -/
def replaceEnding (ending instead s : List Char) : Option (List Char) :=
  if ending.length < s.length ∧ ending <:+ s then
    some (s.take (s.length - ending.length) ++ instead)
  else none

/-- Writes the abbreviations `Url` and `Id` at the end of a token in capitals. -/
def capitalizeEnding (token : List Char) : List Char :=
  match replaceEnding "Url".toList "URL".toList token with
  | some t => t
  | none => (replaceEnding "Id".toList "ID".toList token).getD token

/-- The label for one part of a selector: `URLString` gives `urlString`. -/
def normalizeToken (token : List Char) : List Char :=
  capitalizeEnding (lowerStart token)

/-- What follows `init` and `With` at the start of a constructor's selector. -/
def afterInit (selector : List Char) : List Char :=
  Text.withoutStart "With".toList
    (Text.withoutStart "init".toList (withoutUnderscores selector))

/-- The tokens before repeats are numbered. -/
def plainTokens (selector : List Char) : List (List Char) :=
  (partsOf (afterInit selector)).map normalizeToken

/-- Puts a number on every token that has occurred before: the second `a` is `a2`. The tokens
`before` come earlier, in any order. -/
def numberRepeats (before : List (List Char)) : List (List Char) → List (List Char)
  | [] => []
  | t :: ts =>
    let n := before.count t + 1
    (if n = 1 then t else t ++ (toString n).toList) :: numberRepeats (t :: before) ts

/-- `l` without its last element if `drop` holds. -/
def dropLastIf (drop : Bool) (l : List α) : List α :=
  if drop then l.dropLast else l

/-- The tokens of a constructor's selector. A trailing error parameter has none. -/
def constructorTokens (selector : String) (hasErrorParam : Bool) : List String :=
  (numberRepeats [] (dropLastIf hasErrorParam (plainTokens selector.toList))).map String.ofList

end InteropGraph.Naming
