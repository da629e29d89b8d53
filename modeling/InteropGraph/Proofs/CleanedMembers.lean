import InteropGraph.Proofs.RedundantMembers
import Mathlib.Algebra.BigOperators.Group.Finset.Basic

/-!
# Cleaned members

When a container has had its turn, its lists are clean (`Graph.Cleaned`): their members exist, no
two of a list go by the same name, and nothing is listed that is inherited. Containers that are
cleaned afterwards only lose members, so that there is nothing new to inherit, and what is clean
stays clean.
-/

namespace InteropGraph

namespace Graph

variable {g g' : Graph} {x i : EntityId} {inherited : List MemberKey}
  {seen : List (String × Bool)} {ids : List EntityId}

/-- Every entity has a name and is static or not. -/
theorem exists_nameAndStatic?_iff :
    (∃ name, g.nameAndStatic? i = some name) ↔ ∃ e, g.entity? i = some e := by
  rw [← Option.isSome_iff_exists, ← Option.isSome_iff_exists, nameAndStatic?, Option.isSome_map]

/-! ### What stays in a list -/

/-- What stays has names that have not come up before, and no two members have the same. -/
theorem names_keepNew : (∀ i ∈ g.keepNew inherited seen ids,
      ∃ name, g.nameAndStatic? i = some name ∧ name ∉ seen) ∧
    (g.keepNew inherited seen ids).Pairwise fun i j =>
      g.nameAndStatic? i ≠ g.nameAndStatic? j := by
  induction seen, ids using keepNew.induct g inherited with
  | case1 => exact ⟨fun _ hi => absurd hi List.not_mem_nil, .nil⟩
  | case2 seen j ids hname ih =>
    rw [keepNew, hname]
    exact ih
  | case3 seen j ids name hname hseen ih =>
    rw [keepNew, hname]
    dsimp only
    rwa [if_pos hseen]
  | case4 seen j ids name hname hseen hkey ih =>
    rw [keepNew, hname]
    dsimp only
    rw [if_neg hseen, if_pos hkey]
    refine ⟨fun i hi => ?_, ih.2⟩
    obtain ⟨other, hother, hnew⟩ := ih.1 i hi
    exact ⟨other, hother, fun h => hnew (List.mem_cons_of_mem name h)⟩
  | case5 seen j ids name hname hseen hkey ih =>
    rw [keepNew, hname]
    dsimp only
    rw [if_neg hseen, if_neg hkey]
    refine ⟨fun i hi => ?_, .cons (fun i hi hsame => ?_) ih.2⟩
    · rcases List.mem_cons.mp hi with rfl | hi
      · exact ⟨name, hname, hseen⟩
      · obtain ⟨other, hother, hnew⟩ := ih.1 i hi
        exact ⟨other, hother, fun h => hnew (List.mem_cons_of_mem name h)⟩
    · -- the name of the first one has come up when it is the turn of the others
      obtain ⟨other, hother, hnew⟩ := ih.1 i hi
      obtain rfl : name = other := Option.some.inj ((hname.symm.trans hsame).trans hother)
      exact hnew List.mem_cons_self

/-! ### Clean lists -/

/-- What the container at `x` lists exists, has a name of its own in its list, and is not
inherited. -/
structure Cleaned (g : Graph) (x : EntityId) : Prop where
  populated : ∀ {m}, g.members? x = some m → ∀ k, ∀ i ∈ m.list k, ∃ e, g.entity? i = some e
  distinct : ∀ {m}, g.members? x = some m → ∀ k,
    (m.list k).Pairwise fun i j => g.nameAndStatic? i ≠ g.nameAndStatic? j
  own : ∀ {key}, g.ListsKey x key → ¬g.Inherits x key

/-- What is clean stays clean while containers lose members. -/
theorem Loses.cleaned (h : g.Loses g') (hcleaned : g.Cleaned x) : g'.Cleaned x where
  populated hm' k i hi := by
    obtain ⟨m, hm, hsublist⟩ := h.members hm'
    rw [← exists_nameAndStatic?_iff, h.name, exists_nameAndStatic?_iff]
    exact hcleaned.populated hm k i ((hsublist k).subset hi)
  distinct hm' k := by
    obtain ⟨m, hm, hsublist⟩ := h.members hm'
    simp only [h.name]
    exact (hcleaned.distinct hm k).sublist (hsublist k)
  own hlists hinherits := hcleaned.own (h.listsKey hlists) (h.inherits hinherits)

/-! ### The number of members -/

/-- The number of members that containers list. -/
def memberCount (g : Graph) : Nat :=
  ∑ i ∈ Finset.range g.slots.size, ((g.members? ⟨i⟩).map (·.all.length)).getD 0

/-- Whoever changes the members of one container changes the number of all by as many. -/
theorem memberCount_mapMembers {m : Members} (hm : g.members? x = some m)
    (f : Members → Members) :
    (g.mapMembers x f).memberCount + m.all.length = g.memberCount + (f m).all.length := by
  let count (g : Graph) (i : Nat) : Nat := ((g.members? ⟨i⟩).map (·.all.length)).getD 0
  have hsize : (g.mapMembers x f).slots.size = g.slots.size := Array.size_modify ..
  obtain ⟨e, he, -⟩ := members?_eq_some_iff.mp hm
  have hmem : x.index ∈ Finset.range g.slots.size :=
    Finset.mem_range.mpr (index_lt_of_entity? he)
  have hbefore : count g x.index = m.all.length := by
    show ((g.members? x).map _).getD 0 = _
    rw [hm]
    rfl
  have hafter : count (g.mapMembers x f) x.index = (f m).all.length := by
    show (((g.mapMembers x f).members? x).map _).getD 0 = _
    rw [members?_mapMembers, if_pos rfl, hm]
    rfl
  have hothers : ∑ i ∈ (Finset.range g.slots.size).erase x.index, count (g.mapMembers x f) i =
      ∑ i ∈ (Finset.range g.slots.size).erase x.index, count g i := by
    refine Finset.sum_congr rfl fun i hi => ?_
    have hne : (⟨i⟩ : EntityId) ≠ x := fun h =>
      (Finset.mem_erase.mp hi).1 (congrArg EntityId.index h)
    show (((g.mapMembers x f).members? ⟨i⟩).map _).getD 0 = _
    rw [members?_mapMembers, if_neg hne]
  have hg : g.memberCount = _ := (Finset.add_sum_erase _ (count g) hmem).symm
  have hg' : (g.mapMembers x f).memberCount = _ :=
    (hsize ▸ rfl : _ = ∑ i ∈ Finset.range g.slots.size, count (g.mapMembers x f) i).trans
      (Finset.add_sum_erase _ (count (g.mapMembers x f)) hmem).symm
  rw [hg, hg', hbefore, hafter, hothers]
  omega

end Graph

namespace Draft

variable {d d' d'' : Draft} {c x : EntityId}

/-! ### Members that are dropped are counted -/

/-- So many members are gone, and the report has counted them. -/
def Removes (d : Draft) (n : Nat) (d' : Draft) : Prop :=
  d'.graph.memberCount + n = d.graph.memberCount ∧
    d'.report = { d.report with removedMembers := d.report.removedMembers + n }

/-- Members that are removed in a row are counted together. -/
theorem Removes.trans {n n' : Nat} (h : d.Removes n d') (h' : d'.Removes n' d'') :
    d.Removes (n + n') d'' := by
  obtain ⟨hcount, hreport⟩ := h
  obtain ⟨hcount', hreport'⟩ := h'
  refine ⟨?_, ?_⟩
  · rw [← hcount, ← hcount', Nat.add_assoc, Nat.add_comm n']
  · rw [hreport', hreport, Nat.add_assoc]

/-- What a container loses is counted. -/
theorem Drops.removes (h : d.Drops c d') : ∃ n, d.Removes n d' := by
  cases h with
  | other => exact ⟨0, rfl, rfl⟩
  | @members m after hm hlists =>
    have hcount := Graph.memberCount_mapMembers hm fun _ => after
    have hle := (Members.sublist_all hlists).length_le
    refine ⟨m.all.length - after.all.length, ?_, rfl⟩
    show (d.graph.mapMembers c fun _ => after).memberCount + _ = _
    omega

/-- The report grows by the members that are lost. -/
theorem removes_dropRedundant (d : Draft) : ∃ n, d.Removes n d.dropRedundant :=
  rel_forListed (R := fun d d' => ∃ n, d.Removes n d') (fun _ => ⟨0, rfl, rfl⟩)
    (fun ⟨n, h⟩ ⟨n', h'⟩ => ⟨n + n', h.trans h'⟩)
    (fun d c => (d.drops_dropRedundantFrom c).removes) d

/-! ### The pass -/

/-- A container is clean after its turn. -/
theorem cleaned_dropRedundantFrom (d : Draft) (c : EntityId) :
    (d.dropRedundantFrom c).graph.Cleaned c := by
  have hloses := (d.drops_dropRedundantFrom c).loses
  have hlist {m' : Members} (hm' : (d.dropRedundantFrom c).graph.members? c = some m')
      (k : MemberList) : ∃ ids, m'.list k = d.graph.keepNew (d.graph.inheritedKeys c) [] ids := by
    rw [members?_dropRedundantFrom, if_pos rfl] at hm'
    obtain ⟨m, -, rfl⟩ := Option.map_eq_some_iff.mp hm'
    exact ⟨m.list k, m.list_mapLists _ k⟩
  refine ⟨fun hm' k i hi => ?_, fun hm' k => ?_, fun hlists hinherits =>
    not_listsKey_dropRedundantFrom (hloses.inherits hinherits) hlists⟩
  · obtain ⟨ids, hids⟩ := hlist hm' k
    obtain ⟨name, hname, -⟩ := Graph.names_keepNew.1 i (hids ▸ hi)
    exact Graph.exists_nameAndStatic?_iff.mp ⟨name, (hloses.name i).trans hname⟩
  · obtain ⟨ids, hids⟩ := hlist hm' k
    simp only [hloses.name, hids]
    exact Graph.names_keepNew.2

/-- Containers stay containers. -/
theorem exists_members?_foldl {m : Members} (hm : d.graph.members? x = some m)
    (ids : List EntityId) : ∃ m', (ids.foldl dropRedundantFrom d).graph.members? x = some m' := by
  refine List.foldlRecOn (motive := fun d' => ∃ m', d'.graph.members? x = some m') ids
    dropRedundantFrom ⟨m, hm⟩ fun d' ⟨m', hm'⟩ c _ => ?_
  by_cases hc : x = c
  · subst hc
    exact exists_members?_dropRedundantFrom hm'
  · exact ⟨m', (members?_dropRedundantFrom_of_ne hc).trans hm'⟩

/-- **Cleaned members.** In whatever order containers are listed, each of them ends up with clean
lists: the members are some of those that it has had, in their order; they exist, no two of a list
share a name, and none has a key that the container inherits in the end. The walk to the bases ends,
also where they are cyclic; and the report counts what has been dropped. -/
theorem members_cleaned (d : Draft) :
    (∀ x ∈ d.listed, ∀ m, d.graph.members? x = some m → ∃ m',
      d.dropRedundant.graph.members? x = some m' ∧
        (∀ k, (m'.list k).Sublist (m.list k) ∧
          (∀ i ∈ m'.list k, ∃ e, d.dropRedundant.graph.entity? i = some e) ∧
          (m'.list k).Pairwise fun i j =>
            d.dropRedundant.graph.nameAndStatic? i ≠ d.dropRedundant.graph.nameAndStatic? j) ∧
        ∀ k, ∀ i ∈ m'.list k, ∀ key, d.dropRedundant.graph.memberKey? i = some key →
          ¬d.dropRedundant.graph.Inherits x key) ∧
    (∀ (g : Graph) x, g.Climbs [x] ((g.entity? x).bind Entity.base?) (g.bases x)) ∧
    ∃ n, d.dropRedundant.graph.memberCount + n = d.graph.memberCount ∧
      d.dropRedundant.report =
        { d.report with removedMembers := d.report.removedMembers + n } := by
  refine ⟨fun x hx m hm => ?_, Graph.climbs_bases, d.removes_dropRedundant⟩
  obtain ⟨before, after, hlisted⟩ := List.append_of_mem hx
  have hrun := forListed_split hlisted dropRedundantFrom
  have hcleaned : d.dropRedundant.graph.Cleaned x := by
    rw [dropRedundant, hrun]
    exact (loses_foldl _ after).cleaned (cleaned_dropRedundantFrom _ x)
  obtain ⟨m', hm'⟩ := exists_members?_foldl hm d.listed
  obtain ⟨m₀, hm₀, hsublist⟩ := (loses_foldl d d.listed).members hm'
  obtain rfl : m = m₀ := Option.some.inj (hm.symm.trans hm₀)
  refine ⟨m', hm', fun k => ⟨hsublist k, hcleaned.populated hm' k, hcleaned.distinct hm' k⟩, ?_⟩
  exact fun k i hi key hkey => hcleaned.own ⟨m', hm', k, i, hi, hkey⟩

end Draft

end InteropGraph
