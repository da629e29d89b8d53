import InteropGraph.Graph.Dump
import InteropGraph.Proofs.Graph.Basic
import InteropGraph.Proofs.Lists
import Mathlib.Data.List.Perm.Basic

/-!
# Entities by module

What a partition lists, and when the check for clashes of names finds nothing. A partition has one
entry for each module that occurs, and lists again what it is made from, each entity where it
belongs.
-/

namespace InteropGraph

namespace Modules

variable {moduleOf : EntityId → Option String} {ids : List EntityId} {module : String}
  {entry : List EntityId}

theorem eq_filter_of_mem_partition (h : (module, entry) ∈ partition moduleOf ids) :
    entry = ids.filter fun id => moduleOf id = some module := by
  unfold partition ofList at h
  obtain ⟨m, -, heq⟩ := List.mem_map.mp (List.mem_mergeSort.mp h)
  cases heq
  rfl

/-- Every module that occurs has an entry. -/
theorem mem_partition {id : EntityId} (hid : id ∈ ids) (hmodule : moduleOf id = some module) :
    (module, ids.filter fun id => moduleOf id = some module) ∈ partition moduleOf ids := by
  refine List.mem_mergeSort.mpr (List.mem_map.mpr ⟨module, ?_, rfl⟩)
  exact List.mem_eraseDups.mpr (List.mem_filterMap.mpr ⟨id, hid, hmodule⟩)

theorem nodup_modules_partition (moduleOf : EntityId → Option String) (ids : List EntityId) :
    ((partition moduleOf ids).map Prod.fst).Nodup := by
  unfold partition ofList
  refine ((List.mergeSort_perm _ _).map Prod.fst).nodup_iff.mpr ?_
  rw [List.map_map]
  exact (List.map_id _).symm ▸ List.nodup_eraseDups _

theorem nodup_ids_partition (h : ids.Nodup) : (partition moduleOf ids).ids.Nodup := by
  refine List.nodup_flatMap.mpr ⟨fun ⟨module, entry⟩ hentry => ?_, ?_⟩
  · rw [eq_filter_of_mem_partition hentry]
    exact h.filter _
  -- an entity in two entries would be of two modules
  · refine (List.pairwise_map.mp (nodup_modules_partition moduleOf ids)).imp_of_mem ?_
    rintro ⟨m, entry⟩ ⟨m', entry'⟩ hentry hentry' hne id hid hid'
    rw [eq_filter_of_mem_partition hentry] at hid
    rw [eq_filter_of_mem_partition hentry'] at hid'
    have hm := of_decide_eq_true (List.mem_filter.mp hid).2
    have hm' := of_decide_eq_true (List.mem_filter.mp hid').2
    exact hne (Option.some.inj (hm.symm.trans hm'))

/-- A partition lists what has a module, in another order. -/
theorem ids_partition_perm (moduleOf : EntityId → Option String) (h : ids.Nodup) :
    (partition moduleOf ids).ids.Perm (ids.filter fun id => (moduleOf id).isSome) := by
  refine (List.perm_ext_iff_of_nodup (nodup_ids_partition h) (h.filter _)).mpr fun id => ?_
  rw [List.mem_filter]
  constructor
  · intro hid
    obtain ⟨⟨module, entry⟩, hentry, hid⟩ := List.mem_flatMap.mp hid
    rw [eq_filter_of_mem_partition hentry] at hid
    obtain ⟨hlisted, hmodule⟩ := List.mem_filter.mp hid
    exact ⟨hlisted, Option.isSome_iff_exists.mpr ⟨module, of_decide_eq_true hmodule⟩⟩
  · rintro ⟨hlisted, hsome⟩
    obtain ⟨module, hmodule⟩ := Option.isSome_iff_exists.mp hsome
    refine List.mem_flatMap.mpr ⟨_, mem_partition hlisted hmodule, ?_⟩
    exact List.mem_filter.mpr ⟨hlisted, decide_eq_true hmodule⟩

/-- A partition lists nothing new. -/
theorem mem_of_mem_ids_partition {id : EntityId} (h : id ∈ (partition moduleOf ids).ids) :
    id ∈ ids := by
  obtain ⟨⟨module, entry⟩, hmem, hid⟩ := List.mem_flatMap.mp h
  rw [eq_filter_of_mem_partition hmem] at hid
  exact (List.mem_filter.mp hid).1

end Modules

namespace Graph

variable {g : Graph}

/-- Nothing is repeated among distinct names, none of which has come up before. -/
theorem repeatedName?_eq_none {module : String} {seen : List (String × EntityId)}
    {ids : List EntityId} (hnodup : (ids.map g.bridgeName).Nodup)
    (hseen : ∀ id ∈ ids, seen.lookup (g.bridgeName id) = none) :
    g.repeatedName? module seen ids = none := by
  induction ids generalizing seen with
  | nil => rfl
  | cons id ids ih =>
    rw [List.map_cons, List.nodup_cons] at hnodup
    rw [repeatedName?, hseen id List.mem_cons_self]
    refine ih hnodup.2 fun other hother => ?_
    have hne : g.bridgeName other ≠ g.bridgeName id := fun h =>
      hnodup.1 (List.mem_map.mpr ⟨other, hother, h⟩)
    rw [List.lookup_cons, beq_eq_false_iff_ne.mpr hne]
    exact hseen other (List.mem_cons_of_mem id hother)

theorem clash?_eq_none {modules : Modules}
    (h : ∀ module ids, (module, ids) ∈ modules → (ids.map g.bridgeName).Nodup) :
    g.clash? modules = none := by
  unfold clash?
  rw [List.findSome?_eq_none_iff]
  rintro ⟨module, ids⟩ hmem
  exact repeatedName?_eq_none (h module ids hmem) fun _ _ => rfl

end Graph

end InteropGraph
