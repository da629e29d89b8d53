import InteropGraph.Failure
import InteropGraph.Graph.Basic

/-!
# Assemblies

An assembly turns the declarations of a source unit into the entities of a graph, each at most
once. Its state holds the graph, and the answers to the requests for declarations and types. From
the moment when its construction begins a declaration has an answer: the slot of its entity.

- `Assemble α` is a step that may fail. The state lives on through a failure.
- `construct` runs one construction. If it fails, everything that was made while it ran is
  forgotten, since it may refer to the slot that stays vacant; only failures stay. What was made is
  read off two journals, which are then cut back to the mark where the construction began.
-/

namespace InteropGraph

/-- Counts over a run. -/
structure Tally where
  /-- Constructions that were begun. -/
  constructions : Nat := 0
  /-- Requests that were answered from memory. -/
  hits : Nat := 0
  /-- Constructions that failed. -/
  failures : Nat := 0
deriving DecidableEq, Repr

/-- What a request for a declaration leads to: the place of its entity, or why it has none. -/
abbrev Assembly.Answer := Except Failure EntityId

/-- The state of an assembly. -/
structure Assembly where
  graph : Graph
  /-- The answers to requests, the latest first. An entity may still be under construction. -/
  answers : List (DeclRef × Assembly.Answer)
  /-- The types that are resolved, the latest first. -/
  types : List (TypeRef × TypeId)
  /-- The journal of the declarations whose constructions were begun, the latest first. -/
  begun : List DeclRef
  /-- The journal of the types that were resolved, the latest first. -/
  resolved : List TypeRef
  tally : Tally

/-- A step of an assembly. -/
abbrev Assemble (α : Type) := ExceptT Failure (StateM Assembly) α

namespace Assembly

/-- Nothing has been asked for yet. -/
def empty : Assembly := ⟨.empty, [], [], [], [], {}⟩

/-- The answer to a request for `d`, if there has been one. -/
def answer? (a : Assembly) (d : DeclRef) : Option Answer :=
  a.answers.lookup d

/-- The place that is known of a type. -/
def typeId? (a : Assembly) (t : TypeRef) : Option TypeId :=
  a.types.lookup t

/-- Whether `d` has an entity, which may still be under construction. -/
def isReady (a : Assembly) (d : DeclRef) : Bool :=
  (a.answer? d).any Except.isOk

/-- Counts a request that is answered from memory. -/
def countHit (a : Assembly) : Assembly :=
  { a with tally := { a.tally with hits := a.tally.hits + 1 } }

/-! ### Constructions -/

/-- The lengths of the journals at some time. -/
structure Mark where
  begun : Nat
  resolved : Nat

/-- How far the two journals have got. -/
def mark (a : Assembly) : Mark := ⟨a.begun.length, a.resolved.length⟩

/-- Forgets the answer to requests for `d`. -/
def retract (a : Assembly) (d : DeclRef) : Assembly :=
  { a with answers := a.answers.filter (·.1 ≠ d) }

/-- Begins a construction of `d` in a new slot, which answers requests for `d` from now on. -/
def begin (a : Assembly) (d : DeclRef) : EntityId × Assembly :=
  let (slot, graph) := a.graph.reserve
  (slot, { a with
    graph
    answers := (d, .ok slot) :: (a.retract d).answers
    begun := d :: a.begun
    tally := { a.tally with constructions := a.tally.constructions + 1 } })

/-- Ends a construction that has succeeded. -/
def complete (a : Assembly) (slot : EntityId) (e : Entity) : Assembly :=
  { a with graph := a.graph.fill slot e }

/-- Forgets the entities and types that were made since a mark. Failures stay. -/
def forgetSince (a : Assembly) (m : Mark) : Assembly :=
  let begun := a.begun.take (a.begun.length - m.begun)
  let resolved := a.resolved.take (a.resolved.length - m.resolved)
  { a with
    answers := a.answers.filter fun entry => !(entry.1 ∈ begun && a.isReady entry.1)
    types := a.types.filter fun entry => entry.1 ∉ resolved
    begun := a.begun.drop (a.begun.length - m.begun)
    resolved := a.resolved.drop (a.resolved.length - m.resolved) }

/-- Ends a construction of `d` that has failed and that began at a mark. -/
def abandon (a : Assembly) (m : Mark) (d : DeclRef) (f : Failure) : Assembly :=
  let a := a.forgetSince m
  { a with
    answers := (d, .error f) :: a.answers
    tally := { a.tally with failures := a.tally.failures + 1 } }

/-- Runs a construction of `d`. -/
def construct (d : DeclRef) (build : Assemble Entity) : Assemble EntityId :=
  ExceptT.mk fun before =>
    let (slot, a) := before.begin d
    match build.run a with
    | (.ok e, a) => (.ok slot, a.complete slot e)
    | (.error f, a) => (.error f, a.abandon before.mark d f)

/-! ### Steps -/

/-- Adds a resolved type and remembers it for `t`. -/
def addType (t : TypeRef) (type : BridgeType) : Assemble TypeId :=
  modifyGet fun a =>
    let (id, graph) := a.graph.addType type
    (id, { a with graph, types := (t, id) :: a.types, resolved := t :: a.resolved })

/-- The graph as it is now. -/
def currentGraph : Assemble Graph :=
  return (← get).graph

/-- The result of a step, or nothing if it fails. -/
def attempt (step : Assemble α) : Assemble (Option α) :=
  tryCatch (step.map some) fun _ => return none

/-- Gives up with a failure, if there is one. -/
def ofExcept (r : Except Failure α) : Assemble α :=
  match r with
  | .ok a => return a
  | .error f => throw f

end Assembly

end InteropGraph
