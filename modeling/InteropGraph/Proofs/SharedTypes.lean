import InteropGraph.Proofs.Assembly.Identity
import InteropGraph.Proofs.Dump
import Mathlib

/-!
# Places of types

Where the declarations behind a finished graph name the same type, their entities carry places that
stand for it. They carry the same place, unless the type mentions itself: then it may have one place
for the declarations within and another for those around.

Mathlib is imported whole for `cbv`, which evaluates the examples, and which would otherwise state
equations of its own for functions of the library.
-/

namespace InteropGraph

/-- The types that the sources of the presented entities name, each with the place that the entity
carries for it. -/
def Bridged.carried (b : Bridged) (unit : SourceUnit) : List (TypeRef × TypeId) :=
  b.dump.entities.flatMap fun entry =>
    match entry.2.source.bind unit.declaration? with
    | some decl => decl.shape.typesNamed.zip entry.2.detail.types
    | none => []

theorem Bridged.mem_carried {b : Bridged} {unit : SourceUnit} {t : TypeRef} {i : TypeId} :
    (t, i) ∈ b.carried unit ↔ ∃ id e d decl, (id, e) ∈ b.dump.entities ∧ e.source = some d ∧
      unit.declaration? d = some decl ∧ (t, i) ∈ decl.shape.typesNamed.zip e.detail.types := by
  unfold Bridged.carried
  rw [List.mem_flatMap]
  constructor
  · rintro ⟨⟨id, e⟩, he, hti⟩
    split at hti
    next decl hdecl =>
      obtain ⟨d, hd, hdecl⟩ := Option.bind_eq_some_iff.mp hdecl
      exact ⟨id, e, d, decl, he, hd, hdecl, hti⟩
    next => cases hti
  · rintro ⟨id, e, d, decl, he, hd, hdecl, hti⟩
    refine ⟨(id, e), he, ?_⟩
    rw [show e.source.bind unit.declaration? = some decl by rw [hd]; exact hdecl]
    exact hti

/-- An entity carries what stands for the types that its declaration names. -/
theorem Assembly.Describes.denotes_types {unit : SourceUnit} {a : Assembly} {shape : Shape}
    {detail : Detail} (h : Assembly.Describes unit a shape detail) :
    List.Forall₂ (Assembly.Denotes unit a) shape.typesNamed detail.types := by
  cases h with
  | function types => exact types
  | record types => exact Assembly.denotes_of_fields types
  | global type => exact .cons type .nil
  | method types => exact types
  | enumeration | enumConstant | interface | protocol | category | property => exact .nil

namespace Intake

variable {unit : SourceUnit} {settings : Settings} {done : List DeclRef} {i : Intake}

theorem coherent_run (unit : SourceUnit) (settings : Settings) :
    (Intake.run unit settings).assembly.Coherent unit :=
  assembly_foldl (I := Assembly.Coherent unit)
    (fun d _ a ha => (Assembly.request_coherent [] d.1 "" a ha).2) (.empty unit)

/-- What is carried for a type stands for it, and is known if the type does not mention itself. -/
theorem Sound.denotes_of_mem_carried (h : Sound unit settings done i)
    (hcoherent : i.assembly.Coherent unit) {t : TypeRef} {id : TypeId}
    (hid : (t, id) ∈ (Bridged.ofDraft i.draft.finish).carried unit) :
    Assembly.Denotes unit i.assembly t id ∧
      (¬Assembly.Reentrant unit t → i.assembly.typeId? t = some id) := by
  obtain ⟨place, e, d, decl, he, hd, hdecl, hcarried⟩ := Bridged.mem_carried.mp hid
  obtain ⟨e₀, hready, he₀, hcomplete, hsame⟩ := h.made_of_source he hd hdecl
  rw [hsame.types] at hcarried
  refine ⟨(List.forall₂_iff_zip.mp hcomplete.describes.denotes_types).2 hcarried, ?_⟩
  exact hcoherent.known hready he₀ hcomplete.source hdecl t id hcarried

end Intake

/-- **Types as identities.** Functions, methods, fields and variables that name the same type carry
what stands for that type, and they carry the same place unless the type mentions itself. -/
theorem carried_agree (unit : SourceUnit) (settings : Settings) {t : TypeRef} {i i' : TypeId}
    (hi : (t, i) ∈ (unit.bridge settings).carried unit)
    (hi' : (t, i') ∈ (unit.bridge settings).carried unit) :
    Assembly.Denotes unit (Intake.run unit settings).assembly t i ∧
      Assembly.Denotes unit (Intake.run unit settings).assembly t i' ∧
        (¬Assembly.Reentrant unit t → i = i') := by
  obtain ⟨done, hsound⟩ := Intake.sound_run unit settings
  have hcoherent := Intake.coherent_run unit settings
  obtain ⟨hdenotes, hknown⟩ := hsound.denotes_of_mem_carried hcoherent hi
  obtain ⟨hdenotes', hknown'⟩ := hsound.denotes_of_mem_carried hcoherent hi'
  refine ⟨hdenotes, hdenotes', fun ht => ?_⟩
  exact Option.some.inj ((hknown ht).symm.trans (hknown' ht))

/-! ### A type with one place and a type with two -/

namespace SourceUnit

/-- Two functions that return an `int`. -/
def twoFunctions : SourceUnit where
  declarations := #[plainDeclaration "f" (.function ⟨⟨0⟩, [], false⟩),
    plainDeclaration "g" (.function ⟨⟨0⟩, [], false⟩)]
  types := #[.primitive .int]

/-- A function that returns a pointer to a record whose field is such a pointer. -/
def linkedNode : SourceUnit where
  declarations := #[plainDeclaration "f" (.function ⟨⟨1⟩, [], false⟩),
    plainDeclaration "Node" (.record false [⟨"next", ⟨1⟩⟩])]
  types := #[.record ⟨1⟩, .pointer ⟨0⟩]

end SourceUnit

theorem carried_twoFunctions :
    (SourceUnit.twoFunctions.bridge .default).carried SourceUnit.twoFunctions =
      [(⟨0⟩, ⟨0⟩), (⟨0⟩, ⟨0⟩)] := by
  cbv

/-- A type without parts mentions nothing. -/
theorem not_reentrant_of_primitive {unit : SourceUnit} {t : TypeRef} {p : Primitive}
    (ht : unit.type? t = some (.primitive p)) : ¬Assembly.Reentrant unit t := by
  intro h
  obtain ⟨y, hy, -⟩ := Relation.TransGen.head'_iff.mp h
  cases hy with
  | requestOfType found mem =>
    cases found.symm.trans ht
    cases mem
  | part found mem =>
    cases found.symm.trans ht
    cases mem

/-- Both functions carry the one place of `int`. -/
theorem carried_agree_twoFunctions :
    (⟨0⟩, ⟨0⟩) ∈ (SourceUnit.twoFunctions.bridge .default).carried SourceUnit.twoFunctions ∧
      Assembly.Denotes SourceUnit.twoFunctions
        (Intake.run SourceUnit.twoFunctions .default).assembly ⟨0⟩ ⟨0⟩ ∧
          (⟨0⟩ : TypeId) = ⟨0⟩ := by
  have hmem : (⟨0⟩, ⟨0⟩) ∈
      (SourceUnit.twoFunctions.bridge .default).carried SourceUnit.twoFunctions := by
    rw [carried_twoFunctions]
    exact List.mem_cons_self
  obtain ⟨hdenotes, -, hsame⟩ := carried_agree SourceUnit.twoFunctions .default hmem hmem
  exact ⟨hmem, hdenotes, hsame (not_reentrant_of_primitive (p := .int) rfl)⟩

/-- **One type with two places.** In `linkedNode` the pointer is resolved again for the field while
it is being resolved for the function, and the two carry different places for it. -/
theorem carried_linkedNode :
    (SourceUnit.linkedNode.bridge .default).carried SourceUnit.linkedNode =
      [(⟨1⟩, ⟨3⟩), (⟨1⟩, ⟨1⟩)] ∧ (⟨3⟩ : TypeId) ≠ ⟨1⟩ := by
  have hcarried : (SourceUnit.linkedNode.bridge .default).carried SourceUnit.linkedNode =
      [(⟨1⟩, ⟨3⟩), (⟨1⟩, ⟨1⟩)] := by
    cbv
  exact ⟨hcarried, by decide⟩

end InteropGraph
