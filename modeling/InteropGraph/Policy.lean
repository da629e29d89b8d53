import InteropGraph.Glob.Match
import InteropGraph.Text.Basic

/-!
# Inclusion policy

Which symbols of which modules are processed. A rule is written `module[:symbol]`, two globs; the
module glob is tried on the full module name (`UIKit.UIView`) and on its top-level part (`UIKit`).
An exclusion always wins, and without inclusions everything else is included.
-/

namespace InteropGraph

/-- The part of a module name before the first dot. -/
def topLevelModule (module : String) : String :=
  String.ofList (Text.cut '.' module.toList).1

namespace Policy

/-- A rule of a policy, with the text that it was read from. -/
structure Rule where
  source : String
  module : Glob
  symbol : Glob

/-- A rule that cannot be read: its whole text, and which of its parts is no glob. -/
structure Refusal where
  pattern : String
  part : String
  reason : Glob.Refusal
deriving DecidableEq, Repr

/-- What is said of a filter whose pattern cannot be read. -/
def Refusal.message (e : Refusal) : String :=
  s!"invalid pattern '{e.pattern}': error parsing glob '{e.part}': {e.reason.message}"

/-- Reads one part of a rule; an empty part matches everything. -/
def glob (pattern : String) (part : List Char) : Except Refusal Glob :=
  let part := if part = [] then "*" else String.ofList part
  (Glob.ofPattern part).mapError fun reason => ⟨pattern, part, reason⟩

/-- Reads a rule; without a colon it holds for every symbol of the module. -/
def Rule.parse (pattern : String) : Except Refusal Rule := do
  let (module, symbol) := Text.cut ':' pattern.toList
  let module ← glob pattern module
  let symbol ← glob pattern (symbol.getD [])
  return { source := pattern, module, symbol }

/-- Whether a rule is about a symbol. Its module may be given in full or by its top-level module. -/
def Rule.applies (r : Rule) (module symbol : String) : Bool :=
  (r.module.isMatch module || r.module.isMatch (topLevelModule module)) && r.symbol.isMatch symbol

/-- The rule that decided about a symbol. -/
inductive Reason where
  | excludedBy (pattern : String)
  | includedBy (pattern : String)
  | notIncluded
deriving DecidableEq, Repr

/-- What decided about a symbol, in words. -/
def Reason.message : Reason → String
  | .excludedBy p => s!"excluded by '{p}'"
  | .includedBy p => s!"included by '{p}'"
  | .notIncluded => "not matched by any include pattern"

/-- The outcome for one symbol; there is no reason if there are no inclusions. -/
structure Decision where
  included : Bool
  reason : Option Reason
deriving DecidableEq, Repr

end Policy

/-- The rules on what to include and what to exclude. -/
structure Policy where
  inclusions : List Policy.Rule
  exclusions : List Policy.Rule

namespace Policy

/-- The policy that includes everything. -/
def all : Policy := ⟨[], []⟩

/-- Reads the rules of a policy, the inclusions first. -/
def parse (inclusions exclusions : List String) : Except Refusal Policy := do
  let inclusions ← inclusions.mapM Rule.parse
  let exclusions ← exclusions.mapM Rule.parse
  return { inclusions, exclusions }

/-- The decision about a symbol of a module. -/
def decide (p : Policy) (module symbol : String) : Decision :=
  match p.exclusions.find? (·.applies module symbol) with
  | some r => ⟨false, some (.excludedBy r.source)⟩
  | none =>
    if p.inclusions.isEmpty then ⟨true, none⟩
    else
      match p.inclusions.find? (·.applies module symbol) with
      | some r => ⟨true, some (.includedBy r.source)⟩
      | none => ⟨false, some .notIncluded⟩

end Policy

end InteropGraph
