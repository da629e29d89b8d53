import InteropGraph.Proofs.Lists
import InteropGraph.Source.Basic

/-!
# References of a source unit

The references that lead somewhere are distinct and no more than there are declarations or types,
and those to top-level declarations are among them, in the same order.
-/

namespace InteropGraph

namespace SourceUnit

theorem nodup_declRefs (unit : SourceUnit) : unit.declRefs.Nodup := by
  refine List.Nodup.map_on ?_ List.nodup_range
  intro i hi j hj h
  have hsize {k : Nat} (hk : k ∈ List.range (min unit.declarations.size UInt32.size)) :
      k < UInt32.size := (Nat.lt_min.mp (List.mem_range.mp hk)).2
  have hnat := congrArg UInt32.toNat (DeclRef.mk.inj h)
  rwa [UInt32.toNat_ofNat_of_lt' (hsize hi), UInt32.toNat_ofNat_of_lt' (hsize hj)] at hnat

theorem length_declRefs_le (unit : SourceUnit) : unit.declRefs.length ≤ unit.declarations.size := by
  unfold declRefs
  rw [List.length_map, List.length_range]
  exact Nat.min_le_left _ _

theorem length_typeRefs_le (unit : SourceUnit) : unit.typeRefs.length ≤ unit.types.size := by
  unfold typeRefs
  rw [List.length_map, List.length_range]
  exact Nat.min_le_left _ _

theorem mem_topLevel_iff {unit : SourceUnit} {d : DeclRef × Declaration} :
    d ∈ unit.topLevel ↔ unit.declaration? d.1 = some d.2 ∧ d.2.shape.isTopLevel = true := by
  unfold topLevel
  rw [List.mem_filterMap]
  constructor
  · rintro ⟨x, -, hx⟩
    split at hx
    next decl hdecl =>
      split at hx <;> cases hx
      exact ⟨hdecl, ‹_›⟩
    next => cases hx
  · rintro ⟨hdecl, htop⟩
    refine ⟨d.1, mem_declRefs hdecl, ?_⟩
    rw [hdecl]
    exact if_pos htop

/-- The top-level declarations come in the order of all declarations. -/
theorem sublist_topLevel (unit : SourceUnit) :
    (unit.topLevel.map Prod.fst).Sublist unit.declRefs := by
  unfold topLevel
  rw [List.map_filterMap]
  refine List.filterMap_sublist (fun d x hx => ?_) unit.declRefs
  obtain ⟨p, hp, rfl⟩ := Option.map_eq_some_iff.mp hx
  split at hp
  · split at hp <;> cases hp
    rfl
  · cases hp

/-! ### Small units -/

/-- A declaration of the module `M` that can be used anywhere. -/
def plainDeclaration (name : String) (shape : Shape) : Declaration where
  name := name
  module := "M"
  runtimeName := none
  availability := []
  attributes := .none
  shape := shape

end SourceUnit

end InteropGraph
