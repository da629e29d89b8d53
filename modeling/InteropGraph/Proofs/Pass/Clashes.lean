import InteropGraph.Graph.Dump
import InteropGraph.Pass.Clashes
import InteropGraph.Proofs.Graph.Basic
import InteropGraph.Proofs.Pass.Cases
import Mathlib

/-!
# Names do not clash

`Draft.resolveClashes` renames the losers of each group one after the other. While it does,
`Draft.Settling` holds: every name in use is known to be taken, and of two listed entities with the
same name at least one is still to be renamed. A name that is given is not taken (`freeName_spec`),
so it clashes with nothing, and when nothing is left to be renamed all names are distinct.

Mathlib is imported whole for `Nat.repr_injective`, which none of its smaller modules gives.
-/

namespace InteropGraph

/-- The entity with its candidate number `n` for a name. -/
def Entity.numbered (e : Entity) (n : Nat) : Entity :=
  { e with bridgeName := candidateName (e.bridgeName ++ e.kind.suffix) n, renamed := true }

/-! ### The search for a free name -/

/-- The candidates for a name are distinct. -/
theorem candidateName_inj {stem : String} {m n : Nat}
    (h : candidateName stem m = candidateName stem n) : m = n := by
  have happend {k : Nat} (hk : stem = stem ++ toString k) : False := by
    have hempty : toString k = "" := by
      refine (String.append_right_inj stem).mp ?_
      rw [← hk, String.append_empty]
    rw [Nat.toString_eq_repr] at hempty
    exact Nat.repr_ne_empty hempty
  unfold candidateName at h
  by_cases hm : m = 1
  · by_cases hn : n = 1
    · rw [hm, hn]
    · rw [if_pos hm, if_neg hn] at h
      exact (happend h).elim
  · by_cases hn : n = 1
    · rw [if_neg hm, if_pos hn] at h
      exact (happend h.symm).elim
    · rw [if_neg hm, if_neg hn] at h
      exact Nat.repr_injective ((String.append_right_inj stem).mp h)

/-- The search gives the first candidate that is not taken, which is among the first `n + 1` when
`n` names are taken. -/
theorem freeName_spec (taken : List String) (stem : String) :
    ∃ n, 1 ≤ n ∧ n ≤ taken.length + 1 ∧ freeName taken stem = candidateName stem n ∧
      candidateName stem n ∉ taken ∧ ∀ k, 1 ≤ k → k < n → candidateName stem k ∈ taken := by
  have hfree : freeName taken stem = (((List.range (taken.length + 1)).find?
      fun i => candidateName stem (i + 1) ∉ taken).map fun i => candidateName stem (i + 1)).getD
        stem := by
    show ((((List.range (taken.length + 1)).map fun i => candidateName stem (i + 1)).find?
      (· ∉ taken)).getD stem) = _
    rw [List.find?_map]
    rfl
  cases hfind : (List.range (taken.length + 1)).find?
      fun i => candidateName stem (i + 1) ∉ taken with
  | none =>
    -- as many distinct candidates would be taken as there are taken names, and one more
    have hall : ∀ i ∈ List.range (taken.length + 1), candidateName stem (i + 1) ∈ taken := by
      intro i hi
      simpa using List.find?_eq_none.mp hfind i hi
    have hnodup : ((List.range (taken.length + 1)).map
        fun i => candidateName stem (i + 1)).Nodup :=
      List.Pairwise.map _ (fun i j hij h => hij (Nat.succ.inj (candidateName_inj h)))
        List.nodup_range
    have hle := hnodup.length_le_of_subset fun name hname => by
      obtain ⟨i, hi, rfl⟩ := List.mem_map.mp hname
      exact hall i hi
    rw [List.length_map, List.length_range] at hle
    exact absurd hle (Nat.not_succ_le_self _)
  | some i =>
    rw [hfind] at hfree
    obtain ⟨hi, hmem, hleast⟩ := List.find?_range_eq_some.mp hfind
    refine ⟨i + 1, Nat.succ_le_succ (Nat.zero_le i), List.mem_range.mp hmem, hfree,
      by simpa using hi, fun k hk hki => ?_⟩
    obtain ⟨j, rfl⟩ : ∃ j, k = j + 1 := ⟨k - 1, (Nat.sub_add_cancel hk).symm⟩
    simpa using hleast j (Nat.lt_of_succ_lt_succ hki)

namespace Draft

variable {d : Draft} {taken : List ScopedName} {pending : List (ScopedName × EntityId)}
  {id : EntityId}

/-! ### Names of listed entities -/

/-- A renamed entity stays in its module, and no other one changes its name. -/
theorem scopedName?_rename (d : Draft) (id : EntityId) (name : String) (j : EntityId) :
    scopedName? (d.rename id name).graph j =
      if j = id then (scopedName? d.graph id).map fun old => (old.1, name)
      else scopedName? d.graph j := by
  show ((d.graph.modify id _).entity? j).map _ = _
  rw [Graph.entity?_modify]
  by_cases hj : j = id
  · rw [if_pos hj, if_pos hj]
    unfold scopedName?
    cases d.graph.entity? id <;> rfl
  · rw [if_neg hj, if_neg hj]
    rfl

/-- The entities of one name, in the order in which `losers` goes through them. -/
def group (d : Draft) (name : ScopedName) : List (ScopedName × EntityId) :=
  (d.scopedEntities.filter (·.1 = name)).mergeSort
    fun a b => rankOf d.graph a.2 ≤ rankOf d.graph b.2

/-- The group of a name are the listed entities that have it. -/
theorem mem_group {name : ScopedName} {a : ScopedName × EntityId} : a ∈ d.group name ↔
    a.1 = name ∧ a.2 ∈ d.listed ∧ scopedName? d.graph a.2 = some name := by
  obtain ⟨own, i⟩ := a
  rw [group, List.mem_mergeSort, List.mem_filter, mem_scopedEntities, decide_eq_true_iff]
  constructor
  · rintro ⟨⟨hi, hname⟩, rfl⟩
    exact ⟨rfl, hi, hname⟩
  · rintro ⟨rfl, hi, hname⟩
    exact ⟨⟨hi, hname⟩, rfl⟩

/-- Of two entries of a group at least one is a loser. -/
theorem mem_losers_or {name : ScopedName} {p q : ScopedName × EntityId} (hp : p ∈ d.group name)
    (hq : q ∈ d.group name) (hne : p ≠ q) :
    p ∈ d.losers d.scopedEntities name ∨ q ∈ d.losers d.scopedEntities name := by
  -- only the first entry of the sorted group keeps its name
  show p ∈ (d.group name).drop 1 ∨ q ∈ (d.group name).drop 1
  cases hgroup : d.group name with
  | nil =>
    rw [hgroup] at hp
    cases hp
  | cons first rest =>
    rw [hgroup] at hp hq
    rcases List.mem_cons.mp hp with rfl | hp
    · exact .inr ((List.mem_cons.mp hq).resolve_left (Ne.symm hne))
    · exact .inl hp

/-! ### The renaming loop -/

/-- The state of the renaming loop when `pending` are still to be renamed. -/
structure Settling (d : Draft) (taken : List ScopedName)
    (pending : List (ScopedName × EntityId)) : Prop where
  known : ∀ id ∈ d.listed, ∀ name, scopedName? d.graph id = some name → name ∈ taken
  present : ∀ loser ∈ pending, ∃ name, scopedName? d.graph loser.2 = some (loser.1.1, name)
  apart : ∀ i ∈ d.listed, ∀ j ∈ d.listed, ∀ name, scopedName? d.graph i = some name →
    scopedName? d.graph j = some name →
      i = j ∨ i ∈ pending.map Prod.snd ∨ j ∈ pending.map Prod.snd

/-- A loser gets the first of its candidates that is not taken in its module. -/
theorem renameLoser_least (loser : ScopedName × EntityId) {e : Entity}
    (he : d.graph.entity? loser.2 = some e) (taken : List ScopedName) :
    ∃ n, 1 ≤ n ∧ (loser.1.1, (e.numbered n).bridgeName) ∉ taken ∧
      (∀ k, 1 ≤ k → k < n → (loser.1.1, (e.numbered k).bridgeName) ∈ taken) ∧
      renameLoser (d, taken) loser =
        (d.rename loser.2 (e.numbered n).bridgeName,
          (loser.1.1, (e.numbered n).bridgeName) :: taken) := by
  have hmem (name : String) :
      name ∈ (taken.filter (·.1 = loser.1.1)).map Prod.snd ↔ (loser.1.1, name) ∈ taken := by
    constructor
    · intro hname
      obtain ⟨⟨module, _⟩, hscoped, rfl⟩ := List.mem_map.mp hname
      obtain ⟨hscoped, hmodule⟩ := List.mem_filter.mp hscoped
      obtain rfl : module = loser.1.1 := of_decide_eq_true hmodule
      exact hscoped
    · exact fun hscoped =>
        List.mem_map.mpr ⟨_, List.mem_filter.mpr ⟨hscoped, decide_eq_true rfl⟩, rfl⟩
  obtain ⟨n, hn, -, hname, hfree, hleast⟩ := freeName_spec
    ((taken.filter (·.1 = loser.1.1)).map Prod.snd) (e.bridgeName ++ e.kind.suffix)
  refine ⟨n, hn, mt (hmem _).mpr hfree, fun k hk hkn => (hmem _).mp (hleast k hk hkn), ?_⟩
  unfold renameLoser
  dsimp only
  rw [he]
  dsimp only
  rw [hname]
  rfl

/-- A loser gets a name that is not taken in its module. -/
theorem renameLoser_eq {loser : ScopedName × EntityId} {name : String}
    (h : scopedName? d.graph loser.2 = some (loser.1.1, name)) (taken : List ScopedName) :
    ∃ free, (loser.1.1, free) ∉ taken ∧
      renameLoser (d, taken) loser = (d.rename loser.2 free, (loser.1.1, free) :: taken) := by
  obtain ⟨e, he, -⟩ := Option.map_eq_some_iff.mp h
  obtain ⟨n, -, hfree, -, hrename⟩ := renameLoser_least loser he taken
  exact ⟨_, hfree, hrename⟩

/-- Initially the losers are to be renamed. -/
theorem settling_start (d : Draft) :
    d.Settling (d.scopedEntities.map Prod.fst).eraseDups d.allLosers where
  known id hid name hname :=
    List.mem_eraseDups.mpr (List.mem_map.mpr ⟨(name, id), mem_scopedEntities.mpr ⟨hid, hname⟩, rfl⟩)
  present := by
    rintro ⟨⟨module, name⟩, id⟩ hloser
    exact ⟨name, (mem_scopedEntities.mp (mem_allLosers hloser)).2⟩
  apart i hi j hj name hiname hjname := by
    by_cases hij : i = j
    · exact .inl hij
    · have hname : name ∈ (d.scopedEntities.map Prod.fst).eraseDups :=
        List.mem_eraseDups.mpr (List.mem_map.mpr
          ⟨(name, i), mem_scopedEntities.mpr ⟨hi, hiname⟩, rfl⟩)
      have hp : (name, i) ∈ d.group name := mem_group.mpr ⟨rfl, hi, hiname⟩
      have hq : (name, j) ∈ d.group name := mem_group.mpr ⟨rfl, hj, hjname⟩
      have hne : (name, i) ≠ (name, j) := fun h => hij (congrArg Prod.snd h)
      -- of two entities with one name, one is not the first of its group
      rcases mem_losers_or hp hq hne with hmem | hmem
      · exact .inr (.inl (List.mem_map.mpr ⟨_, List.mem_flatMap.mpr ⟨name, hname, hmem⟩, rfl⟩))
      · exact .inr (.inr (List.mem_map.mpr ⟨_, List.mem_flatMap.mpr ⟨name, hname, hmem⟩, rfl⟩))

/-- Whoever is next may get any name that is not taken, and is done. -/
theorem Settling.rename {loser : ScopedName × EntityId} {free : String}
    (h : d.Settling taken (loser :: pending)) (hfree : (loser.1.1, free) ∉ taken) :
    (d.rename loser.2 free).Settling ((loser.1.1, free) :: taken) pending := by
  have hrenamed := scopedName?_rename d loser.2 free
  obtain ⟨old, hold⟩ := h.present loser List.mem_cons_self
  -- the new name is not taken, so no other listed entity has it
  have hnew {i : EntityId} (hi : i ∈ d.listed) (hne : i ≠ loser.2)
      (hname : scopedName? d.graph i = some (loser.1.1, free)) : False :=
    hfree (h.known i hi _ hname)
  refine ⟨fun i hi name hname => ?_, fun other hother => ?_, fun i hi j hj name hiname hjname => ?_⟩
  · rw [hrenamed] at hname
    by_cases hil : i = loser.2
    · rw [if_pos hil, hold] at hname
      cases hname
      exact List.mem_cons_self
    · rw [if_neg hil] at hname
      exact List.mem_cons_of_mem _ (h.known i hi name hname)
  · obtain ⟨name, hname⟩ := h.present other (List.mem_cons_of_mem loser hother)
    rw [hrenamed]
    by_cases hol : other.2 = loser.2
    · refine ⟨free, ?_⟩
      rw [hol] at hname
      rw [if_pos hol, hname]
      rfl
    · exact ⟨name, by rw [if_neg hol, hname]⟩
  -- two entities that share a name now have shared it before, or one has just been renamed
  · rw [hrenamed] at hiname hjname
    by_cases hil : i = loser.2
    · by_cases hjl : j = loser.2
      · exact .inl (hil.trans hjl.symm)
      · rw [if_pos hil, hold] at hiname
        rw [if_neg hjl] at hjname
        cases hiname
        exact (hnew hj hjl hjname).elim
    · rw [if_neg hil] at hiname
      by_cases hjl : j = loser.2
      · rw [if_pos hjl, hold] at hjname
        cases hjname
        exact (hnew hi hil hiname).elim
      · rw [if_neg hjl] at hjname
        refine (h.apart i hi j hj name hiname hjname).imp_right (Or.imp ?_ ?_)
        · exact fun hmem => (List.mem_cons.mp hmem).resolve_left hil
        · exact fun hmem => (List.mem_cons.mp hmem).resolve_left hjl

/-- When the loop has gone through all who are pending, nobody is. -/
theorem Settling.run (h : d.Settling taken pending) :
    ∃ taken', (pending.foldl renameLoser (d, taken)).1.Settling taken' [] := by
  induction pending generalizing d taken with
  | nil => exact ⟨taken, h⟩
  | cons loser pending ih =>
    obtain ⟨name, hname⟩ := h.present loser List.mem_cons_self
    obtain ⟨free, hfree, hrename⟩ := renameLoser_eq hname taken
    rw [List.foldl_cons, hrename]
    exact ih (h.rename hfree)

/-- After the loop no two listed entities of a module share a bridge name. -/
theorem resolveClashes_apart {i j : EntityId} {name : ScopedName}
    (hi : i ∈ d.resolveClashes.listed) (hj : j ∈ d.resolveClashes.listed)
    (hiname : scopedName? d.resolveClashes.graph i = some name)
    (hjname : scopedName? d.resolveClashes.graph j = some name) : i = j := by
  obtain ⟨taken, h⟩ := d.settling_start.run
  rcases h.apart i hi j hj name hiname hjname with h | h | h
  · exact h
  · cases h
  · cases h

end Draft

end InteropGraph
