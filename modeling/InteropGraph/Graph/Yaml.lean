import InteropGraph.Graph.Dump
import InteropGraph.Yaml.Printer

/-!
# Dumps as YAML

In a YAML dump the entities and types are keyed by integers.
-/

namespace InteropGraph.Graph

/-- A map keyed by indices. -/
def indexed (entries : List (Nat × Json)) : Yaml.Node :=
  .map (entries.map fun (i, j) => (Yaml.Node.scalar (toString i) true, Yaml.Node.ofJson j))

/-- A dump with the same parts as `Dump.toJson`, but numbers for the indices. -/
def Dump.toYaml (d : Dump) : Yaml.Node :=
  .map [(.scalar "modules" false, .ofJson (modulesToJson d.modules)),
    (.scalar "entities" false, indexed (d.entities.map fun (id, e) => (id.index, e.toJson))),
    (.scalar "types" false, indexed (d.types.map fun (t, type) => (t.index, type.toJson)))]

end InteropGraph.Graph
