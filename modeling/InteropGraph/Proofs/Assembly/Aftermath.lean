import InteropGraph.Proofs.Assembly.Causes
import InteropGraph.Proofs.Assembly.Effort

/-!
# What a failed request leaves behind

A construction that fails may have completed many others, resolved types and met failures, before it
comes to its own. All of that is taken back but the failures: `abandon_restores` says so of the
memory, and the slots that were populated are not touched (`abandon_extends`). So the state after a
failed request differs from the one before by failures alone (`AddsFailures`), at the outermost
level as well as in the middle of other constructions. The types that are being resolved around a
request are no part of the state but an argument of `resolve`; a construction begins with none and
gives none back.
-/

namespace InteropGraph.Assembly

variable {unit : SourceUnit} {settings : Settings} {active : List DeclRef} {a b : Assembly}
  {d : DeclRef}

/-- `b` remembers what `a` remembers, and failures of declarations that had no answer in `a`. Every
entity of `a` is where it was. -/
structure AddsFailures (a b : Assembly) : Prop extends Restores a b where
  answer : ∀ x r, a.answer? x = some r → b.answer? x = some r
  added : ∀ x r, b.answer? x = some r →
    a.answer? x = some r ∨ a.answer? x = none ∧ ∃ f, r = .error f
  entity : ∀ id e, a.graph.entity? id = some e → b.graph.entity? id = some e

namespace AddsFailures

/-- Counts do not matter. -/
theorem of_answers (hanswer : ∀ x, b.answer? x = a.answer? x)
    (htype : ∀ t, b.typeId? t = a.typeId? t) (hbegun : b.begun = a.begun)
    (hresolved : b.resolved = a.resolved) (hgraph : b.graph = a.graph) :
    AddsFailures a b where
  ready x id := by rw [hanswer]
  typeId := htype
  begun := hbegun
  resolved := hresolved
  answer x r hx := by rw [hanswer, hx]
  added x r hx := by
    rw [hanswer] at hx
    exact .inl hx
  entity id e he := by rw [hgraph, he]

theorem refl (a : Assembly) : AddsFailures a a :=
  .of_answers (fun _ => rfl) (fun _ => rfl) rfl rfl rfl

theorem countHit (a : Assembly) : AddsFailures a a.countHit :=
  .of_answers (fun _ => rfl) (fun _ => rfl) rfl rfl rfl

/-- A construction that fails adds the failures from inside and its own. -/
theorem abandon (hd : a.answer? d = none) (hdecl : (unit.declaration? d).isSome)
    (hext : Extends unit (a.begin d).2 b) (f : Failure) :
    AddsFailures a (b.abandon a.mark d f) where
  toRestores := abandon_restores hext hd f
  answer _ _ := (abandon_extends hext hd hdecl f).answer
  added x r hx := by
    cases hold : a.answer? x with
    | some r' =>
      have hsame := (abandon_extends hext hd hdecl f).answer hold
      exact .inl (hsame.symm.trans hx)
    | none =>
      refine .inr ⟨rfl, ?_⟩
      cases r with
      | error g => exact ⟨g, rfl⟩
      | ok id =>
        -- what is ready afterwards was so before
        have hready := ((abandon_restores hext hd f).ready x id).mp hx
        cases hold.symm.trans hready
  entity _ _ := (abandon_extends hext hd hdecl f).entity

end AddsFailures

/-- A request that fails adds failures, if what is under way has an answer. -/
theorem request_addsFailures (ha : Answered active a) (d : DeclRef) (owner : String) {f : Failure}
    (hf : ((request unit settings active d owner).run a).1 = .error f) :
    AddsFailures a ((request unit settings active d owner).run a).2 ∧
      ((unit.declaration? d).isSome →
        ((request unit settings active d owner).run a).2.answer? d = some (.error f)) := by
  obtain ⟨r, hd, hrun⟩ | ⟨-, hu, hrun⟩ | ⟨decl, hd, -, hactive, hrun⟩ |
    ⟨decl, hd, hu, -, hrun⟩ := request_cases unit settings active d owner a
  · rw [hrun] at hf ⊢
    obtain rfl : r = .error f := hf
    exact ⟨.countHit a, fun _ => hd⟩
  · rw [hrun]
    refine ⟨.refl a, fun hsome => ?_⟩
    rw [hu] at hsome
    cases hsome
  · -- what is under way has an answer
    obtain ⟨r, hr⟩ := ha d hactive
    cases hd.symm.trans hr
  · have hextending : Extending unit
        (build unit settings (request unit settings (d :: active)) d decl owner) :=
      build_extending (request_extending unit settings (d :: active)) d decl owner
    have hext := hextending (a.begin d).2
    have hdecl : (unit.declaration? d).isSome := by rw [hu]; rfl
    rw [hrun, run_construct] at hf ⊢
    rcases hbuilt : (build unit settings (request unit settings (d :: active)) d decl owner).run
      (a.begin d).2 with ⟨g | e, b⟩
    · rw [hbuilt] at hext hf
      obtain rfl : g = f := Except.error.inj hf
      refine ⟨.abandon hd hdecl hext g, fun _ => ?_⟩
      show (b.abandon a.mark d g).answer? d = some (.error g)
      rw [answer?_abandon, if_pos rfl]
    · rw [hbuilt] at hf
      cases hf

/-- The states that are gone through, from the empty one, by requests: those between the outermost
requests, and those in the middle of the constructions in `active`, where types are resolved and
declarations are requested. -/
inductive Reached (unit : SourceUnit) (settings : Settings) : List DeclRef → Assembly → Prop
  | empty : Reached unit settings [] .empty
  | request {active : List DeclRef} {a : Assembly} (ha : Reached unit settings active a)
    (d : DeclRef) (owner : String) :
    Reached unit settings active ((request unit settings active d owner).run a).2
  | resolve {active : List DeclRef} {a : Assembly} (ha : Reached unit settings active a)
    (resolving : List TypeRef) (t : TypeRef) : Reached unit settings active
      ((resolve unit (request unit settings active) resolving t).run a).2
  | begin {active : List DeclRef} {a : Assembly} {d : DeclRef} (ha : Reached unit settings active a)
    (hdecl : (unit.declaration? d).isSome) (hd : a.answer? d = none) :
    Reached unit settings (d :: active) (a.begin d).2

/-- What is under way has an answer. -/
theorem Reached.answered (ha : Reached unit settings active a) : Answered active a := by
  induction ha with
  | empty => exact nofun
  | request _ d owner ih => exact ih.mono (request_extending unit settings _ d owner _)
  | resolve _ resolving t ih =>
    exact ih.mono (resolve_extending (request_extending unit settings _) resolving t _)
  | begin _ _ _ ih => exact ih.begin _

/-- **Failures leave nothing but failures.** In any state that is reached, also in the middle of
constructions, a request that fails adds failures to the memory and changes nothing else there: not
what is ready, not the places of types, not the journals, and no entity. Its own failure is
remembered, unless there is no such declaration. -/
theorem failed_request_adds_failures (unit : SourceUnit) (settings : Settings)
    (active : List DeclRef) (a : Assembly) (ha : Reached unit settings active a) (d : DeclRef)
    (owner : String) {f : Failure}
    (hf : ((request unit settings active d owner).run a).1 = .error f) :
    AddsFailures a ((request unit settings active d owner).run a).2 ∧
      ((unit.declaration? d).isSome →
        ((request unit settings active d owner).run a).2.answer? d = some (.error f)) :=
  request_addsFailures ha.answered d owner hf

/-- While `A` is under construction, `B` is requested. It completes the type of its first field,
which relies on the promise of `A`, and fails at the second one. -/
theorem failed_request_adds_failures_crossedRecords :
    let a := (Assembly.empty.begin ⟨0⟩).2
    let f := .dependency "field 'x'" (.invalid "dangling type id 99")
    let after := ((request crossedRecords .default [⟨0⟩] ⟨1⟩ "").run a).2
    Reached crossedRecords .default [⟨0⟩] a ∧
      ((request crossedRecords .default [⟨0⟩] ⟨1⟩ "").run a).1 = .error f ∧
      AddsFailures a after ∧ after.answer? ⟨1⟩ = some (.error f) := by
  intro a f after
  have ha : Reached crossedRecords .default [⟨0⟩] a := .begin .empty rfl rfl
  have hf : ((request crossedRecords .default [⟨0⟩] ⟨1⟩ "").run a).1 = .error f := by
    decide +kernel
  obtain ⟨hadds, hown⟩ := failed_request_adds_failures crossedRecords .default [⟨0⟩] a ha ⟨1⟩ "" hf
  exact ⟨ha, hf, hadds, hown rfl⟩

end InteropGraph.Assembly
