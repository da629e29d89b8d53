import InteropGraph.Assembly.Basic
import InteropGraph.Json.Basic

/-!
# Reports

What happened in a run, for the user.
-/

namespace InteropGraph

/-- A declaration that failed with an error. -/
structure Problem where
  declaration : String
  module : String
  /-- The messages of the failure, outermost first. -/
  chain : List String
deriving DecidableEq, Repr

/-- Instance methods of one interface with the same bridge name and number of parameters. -/
structure Overload where
  container : String
  bridgeName : String
  arity : Nat
  selectors : List String
deriving DecidableEq, Repr

/-- What happened in a run. -/
structure Report where
  created : Nat := 0
  skipped : Nat := 0
  failed : Nat := 0
  /-- Declarations that the policy leaves out. -/
  excluded : Nat := 0
  problems : List Problem := []
  removedMembers : Nat := 0
  mergedCategories : Nat := 0
  addedProperties : Nat := 0
  overloads : List Overload := []
  renamed : Nat := 0
  tally : Tally := {}
deriving DecidableEq, Repr

/-! ### JSON -/

/-- A declaration that has failed, with the chain of reasons. -/
def Problem.toJson (p : Problem) : Json :=
  .object [("decl", .text p.declaration), ("module", .text p.module),
    ("chain", .ofList Json.text p.chain)]

/-- Methods of one container with one name and arity. -/
def Overload.toJson (o : Overload) : Json :=
  .object [("container", .text o.container), ("bridge_name", .text o.bridgeName),
    ("arity", .ofNat o.arity), ("selectors", .ofList Json.text o.selectors)]

/-- The counts of an assembly. -/
def Tally.toJson (t : Tally) : Json :=
  .object [("constructions", .ofNat t.constructions), ("cache_hits", .ofNat t.hits),
    ("failures", .ofNat t.failures)]

/-- A report with all its counts and lists. -/
def Report.toJson (r : Report) : Json :=
  .object [("created", .ofNat r.created), ("skipped", .ofNat r.skipped),
    ("failed", .ofNat r.failed), ("excluded", .ofNat r.excluded),
    ("errors", .ofList Problem.toJson r.problems), ("removed_members", .ofNat r.removedMembers),
    ("merged_categories", .ofNat r.mergedCategories),
    ("synthesized_properties", .ofNat r.addedProperties),
    ("method_collisions", .ofList Overload.toJson r.overloads), ("renamed", .ofNat r.renamed),
    ("factory", r.tally.toJson)]

end InteropGraph
