import InteropGraph.Assembly.Request
import InteropGraph.Graph.Dump
import InteropGraph.Pass.Accessors
import InteropGraph.Pass.Categories
import InteropGraph.Pass.Clashes
import InteropGraph.Pass.Redundant
import InteropGraph.Pass.Reserved

/-!
# From a unit to a finished graph

`SourceUnit.bridge` requests every top-level declaration that the policy includes, lets the five
passes run over the result, and sorts the entities into modules. The failure of one declaration
does not touch the others.
-/

namespace InteropGraph

/-- The state while the declarations of a unit are taken in. -/
structure Intake where
  assembly : Assembly
  /-- The entities that were made, in order. -/
  made : List EntityId
  report : Report

namespace Intake

/-- The intake before the first declaration. -/
def start : Intake := ⟨.empty, [], {}⟩

/-- Notes that a declaration failed. -/
def fail (report : Report) (decl : Declaration) (f : Failure) : Report :=
  if f.isIntended then { report with skipped := report.skipped + 1 }
  else
    { report with
      failed := report.failed + 1
      problems := report.problems ++ [⟨decl.name, decl.module, f.chain⟩] }

/-- Takes in one top-level declaration. -/
def take (unit : SourceUnit) (settings : Settings) (i : Intake) (d : DeclRef × Declaration) :
    Intake :=
  if (settings.policy.decide d.2.module d.2.name).included then
    match (Assembly.create unit settings d.1 "").run i.assembly with
    | (.ok id, a) =>
      ⟨a, i.made ++ [id], { i.report with created := i.report.created + 1 }⟩
    | (.error f, a) => ⟨a, i.made, fail i.report d.2 f⟩
  else { i with report := { i.report with excluded := i.report.excluded + 1 } }

/-- Takes in all top-level declarations of a unit. -/
def run (unit : SourceUnit) (settings : Settings) : Intake :=
  unit.topLevel.foldl (take unit settings) start

/-- What the passes start with. -/
def draft (i : Intake) : Draft where
  graph := i.assembly.graph
  listed := i.made
  report := { i.report with tally := i.assembly.tally }

end Intake

/-- The five passes in their order. -/
def Draft.finish (d : Draft) : Draft :=
  d.applyReserved.foldCategories.dropRedundant.alignAccessors.resolveClashes

/-- A graph that is ready for generators. -/
structure Bridged where
  graph : Graph
  modules : Modules
  report : Report

namespace Bridged

/-- What is bridged in the end, its entities sorted by module. -/
def ofDraft (d : Draft) : Bridged where
  graph := d.graph
  modules := .partition d.graph.topModule? d.listed
  report := d.report

/-- Everything that generators see. -/
def dump (b : Bridged) : Graph.Dump := b.graph.dump b.modules

/-- Two entities of one module with the same bridge name, if there are any. -/
def clash? (b : Bridged) : Option Graph.Clash := b.graph.clash? b.modules

end Bridged

/-- The finished graph of a unit. -/
def SourceUnit.bridge (unit : SourceUnit) (settings : Settings) : Bridged :=
  .ofDraft (Intake.run unit settings).draft.finish

end InteropGraph
