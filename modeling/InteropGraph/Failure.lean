/-!
# Failures

Why an entity could not be made. Gaps that are intended are told apart from errors by
`Failure.isIntended`; `Failure.chain` tells the story from the outside in.
-/

namespace InteropGraph

/-- Why an entity could not be made. -/
inductive Failure where
  /-- A construct that is left out on purpose. -/
  | skipped (reason : String)
  /-- A construct that is malformed. -/
  | invalid (reason : String)
  /-- An initial value of a kind that has no representation. -/
  | unsupportedValue (what : String)
  /-- Something that the entity needs could not be made. -/
  | dependency (name : String) (cause : Failure)
deriving DecidableEq, Repr, Inhabited

namespace Failure

/-- A failure in words; of a dependency the failure is told behind its name. -/
def message : Failure → String
  | skipped reason => reason
  | invalid reason => reason
  | unsupportedValue what => "unsupported value kind: " ++ what
  | dependency name cause => "cannot build dependency " ++ name ++ ": " ++ cause.message

/-- Whether the root of the failure is a gap that is intended. -/
def isIntended : Failure → Bool
  | skipped _ | unsupportedValue _ => true
  | invalid _ => false
  | dependency _ cause => cause.isIntended

/-- The messages from the outermost failure down to its root. -/
def chain : Failure → List String
  | dependency name cause => ("cannot build dependency " ++ name) :: cause.chain
  | root => [root.message]

end Failure

end InteropGraph
