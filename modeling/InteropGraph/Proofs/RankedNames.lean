import InteropGraph.Proofs.Lists
import InteropGraph.Proofs.Pass.Clashes
import InteropGraph.Proofs.StableSort

/-!
# Ranked names

Who has to give up a name, and for which other one. The losers of all groups are renamed in the
order of their turns (`Draft.turn`): names have their turn in the order in which they come up in the
list, and entities of one name by rank and then by place. The loop has no memory but the names that
are taken (`Draft.Renaming`), so that each loser gets the least number by which it differs from all
names at the start and from those that have been given before its turn.
-/

namespace InteropGraph

namespace Draft

variable {d d' d'' : Draft} {taken : List ScopedName} {i j x : EntityId} {name : ScopedName}

/-! ### Turns -/

/-- The place in the list at which the name of an entity comes up first. -/
def firstPlace (d : Draft) (i : EntityId) : Nat :=
  (d.listed.map (scopedName? d.graph)).idxOf (scopedName? d.graph i)

/-- When it is the turn of an entity: names have their turn as they come up, the entities of one
name by rank, and those of one rank as they are listed. -/
def turn (d : Draft) (i : EntityId) : ℕ ×ₗ ℕ ×ₗ ℕ :=
  toLex (d.firstPlace i, toLex (rankOf d.graph i, d.listed.idxOf i))

/-- A listed entity has to give up its name if another one of that name has a lesser rank, or the
same rank and an earlier place in the list. -/
def Yields (d : Draft) (i : EntityId) : Prop :=
  i ∈ d.listed ∧ ∃ j ∈ d.listed, scopedName? d.graph j = scopedName? d.graph i ∧
    (rankOf d.graph j < rankOf d.graph i ∨
      rankOf d.graph j = rankOf d.graph i ∧ d.listed.idxOf j < d.listed.idxOf i)

instance (d : Draft) (i : EntityId) : Decidable (d.Yields i) :=
  inferInstanceAs (Decidable (_ ∧ _))

/-- Among entities of one name the lesser rank comes first, and the place decides between equal
ranks. -/
theorem turn_lt_iff (h : scopedName? d.graph j = scopedName? d.graph i) :
    d.turn j < d.turn i ↔ rankOf d.graph j < rankOf d.graph i ∨
      rankOf d.graph j = rankOf d.graph i ∧ d.listed.idxOf j < d.listed.idxOf i := by
  have hplace : d.firstPlace j = d.firstPlace i := congrArg (List.idxOf · _) h
  rw [turn, turn, hplace, Prod.Lex.toLex_lt_toLex, Prod.Lex.toLex_lt_toLex]
  exact (or_iff_right (lt_irrefl _)).trans (and_iff_right rfl)

/-- All that is listed exists. -/
def Populated (d : Draft) : Prop :=
  ∀ i ∈ d.listed, ∃ e, d.graph.entity? i = some e

/-- What is listed has a name. -/
theorem Populated.exists_scopedName? (h : d.Populated) (hi : i ∈ d.listed) :
    ∃ name, scopedName? d.graph i = some name := by
  obtain ⟨e, he⟩ := h i hi
  exact ⟨_, by rw [scopedName?, he]; rfl⟩

/-- The list of names has the order of the list. -/
theorem sublist_scopedEntities (d : Draft) : (d.scopedEntities.map Prod.snd).Sublist d.listed := by
  unfold scopedEntities
  induction d.listed with
  | nil => exact .slnil
  | cons i ids ih =>
    cases hname : scopedName? d.graph i with
    | none =>
      rw [List.filterMap_cons_none (by rw [hname]; rfl)]
      exact ih.cons i
    | some name =>
      rw [List.filterMap_cons_some (by rw [hname]; rfl)]
      exact ih.cons_cons i

/-- The place where a name comes up is its place among all names. -/
theorem Populated.firstPlace_eq (h : d.Populated) (hname : scopedName? d.graph i = some name) :
    d.firstPlace i = (d.scopedEntities.map Prod.fst).idxOf name := by
  have hnames : d.listed.map (scopedName? d.graph) = (d.scopedEntities.map Prod.fst).map some := by
    have hpopulated : ∀ i ∈ d.listed, ∃ name, scopedName? d.graph i = some name :=
      fun i hi => h.exists_scopedName? hi
    unfold scopedEntities
    generalize d.listed = ids at hpopulated ⊢
    induction ids with
    | nil => rfl
    | cons i ids ih =>
      obtain ⟨name, hname⟩ := hpopulated i List.mem_cons_self
      rw [List.filterMap_cons_some (by rw [hname]; rfl), List.map_cons, List.map_cons,
        List.map_cons, hname, ih fun j hj => hpopulated j (List.mem_cons_of_mem i hj)]
  unfold firstPlace
  rw [hnames, hname, List.idxOf, List.findIdx_map]
  rfl

/-! ### The queue of the losers -/

/-- A group is in the order of the turns. -/
theorem pairwise_group (hnodup : d.listed.Nodup) (name : ScopedName) :
    (d.group name).Pairwise fun a b => d.turn a.2 < d.turn b.2 := by
  let rank (a : ScopedName × EntityId) : Nat := rankOf d.graph a.2
  have hsort := stableSort_mergeSort rank (d.scopedEntities.filter (·.1 = name))
  refine hsort.pairwise.imp_of_mem fun {a b} ha hb ⟨hle, htie⟩ => ?_
  have hsame := (mem_group.mp ha).2.2.trans (mem_group.mp hb).2.2.symm
  refine (turn_lt_iff hsame).mpr ((Nat.lt_or_eq_of_le hle).imp_right fun hrank => ⟨hrank, ?_⟩)
  -- with the same rank they are in the order of the list
  have hsublist := ((htie hrank).trans List.filter_sublist).map Prod.snd
  exact List.idxOf_lt_of_sublist hnodup (hsublist.trans d.sublist_scopedEntities)

/-- All losers are renamed in the order of their turns. -/
theorem pairwise_allLosers (hnodup : d.listed.Nodup) (hpopulated : d.Populated) :
    d.allLosers.Pairwise fun a b => d.turn a.2 < d.turn b.2 := by
  have hplace {name : ScopedName} {a : ScopedName × EntityId}
      (ha : a ∈ d.losers d.scopedEntities name) :
      d.firstPlace a.2 = (d.scopedEntities.map Prod.fst).idxOf name := by
    have hgroup : a ∈ d.group name := List.mem_of_mem_drop ha
    exact hpopulated.firstPlace_eq (mem_group.mp hgroup).2.2
  refine List.pairwise_flatMap.mpr
    ⟨fun name _ => (pairwise_group hnodup name).drop, ?_⟩
  refine (List.pairwise_idxOf_eraseDups _).imp fun hlt a ha b hb => ?_
  refine Prod.Lex.toLex_lt_toLex.mpr (.inl ?_)
  show d.firstPlace a.2 < d.firstPlace b.2
  rwa [hplace ha, hplace hb]

/-- The losers are those that have to give up their names. -/
theorem mem_allLosers_iff (hnodup : d.listed.Nodup) (hpopulated : d.Populated) :
    i ∈ d.allLosers.map Prod.snd ↔ d.Yields i := by
  have hlosers (name : ScopedName) {a : ScopedName × EntityId} :
      a ∈ d.losers d.scopedEntities name ↔
        a ∈ d.group name ∧ ∃ b ∈ d.group name, d.turn b.2 < d.turn a.2 :=
    List.mem_drop_one_iff (pairwise_group hnodup name)
  constructor
  · intro hi
    obtain ⟨a, ha, rfl⟩ := List.mem_map.mp hi
    obtain ⟨name, -, ha⟩ := List.mem_flatMap.mp ha
    obtain ⟨ha, b, hb, hlt⟩ := (hlosers name).mp ha
    obtain ⟨-, hi, hiname⟩ := mem_group.mp ha
    obtain ⟨-, hj, hjname⟩ := mem_group.mp hb
    have hsame := hjname.trans hiname.symm
    exact ⟨hi, b.2, hj, hsame, (turn_lt_iff hsame).mp hlt⟩
  · rintro ⟨hi, j, hj, hsame, hlt⟩
    obtain ⟨name, hname⟩ := hpopulated.exists_scopedName? hi
    have hmem : name ∈ (d.scopedEntities.map Prod.fst).eraseDups :=
      List.mem_eraseDups.mpr (List.mem_map.mpr ⟨_, mem_scopedEntities.mpr ⟨hi, hname⟩, rfl⟩)
    have hloser : (name, i) ∈ d.losers d.scopedEntities name :=
      (hlosers name).mpr ⟨mem_group.mpr ⟨rfl, hi, hname⟩, (name, j),
        mem_group.mpr ⟨rfl, hj, hsame.trans hname⟩, (turn_lt_iff hsame).mpr hlt⟩
    exact List.mem_map.mpr ⟨_, List.mem_flatMap.mpr ⟨name, hmem, hloser⟩, rfl⟩

/-! ### The names that are given -/

/-- A listed entity has had the name at the start, or one of the entities in `renamed` with a turn
before that of `i` has it in the end. -/
def TakenBefore (d d' : Draft) (renamed : EntityId → Prop) (i : EntityId) (name : ScopedName) :
    Prop :=
  (∃ j ∈ d.listed, scopedName? d.graph j = some name) ∨
    ∃ j, renamed j ∧ d.turn j < d.turn i ∧ scopedName? d'.graph j = some name

/-- The entity at `i` has been given the least number for which its name has not been taken before
its turn. -/
def Numbers (d d' : Draft) (renamed : EntityId → Prop) (i : EntityId) : Prop :=
  ∃ e n, d.graph.entity? i = some e ∧ d'.graph.entity? i = some (e.numbered n) ∧
    IsLeast {n | 1 ≤ n ∧
      ¬d.TakenBefore d' renamed i (topLevelModule e.module, (e.numbered n).bridgeName)} n

/-- The state of the renaming loop when those in `done` have been renamed. -/
structure Renaming (d : Draft) (done : List EntityId) (d' : Draft) (taken : List ScopedName) :
    Prop where
  listed : d'.listed = d.listed
  places : d'.graph.slots.size = d.graph.slots.size
  types : d'.graph.types = d.graph.types
  report : d'.report = { d.report with renamed := d.report.renamed + done.length }
  others : ∀ i ∉ done, d'.graph.entity? i = d.graph.entity? i
  taken : ∀ name, name ∈ taken ↔ (∃ j ∈ d.listed, scopedName? d.graph j = some name) ∨
    ∃ j ∈ done, scopedName? d'.graph j = some name
  given : ∀ i ∈ done, d.Numbers d' (· ∈ done) i

/-- What is taken before a turn does not depend on later turns. -/
theorem takenBefore_concat {done : List EntityId} (hx : ¬d.turn x < d.turn i)
    (hsame : ∀ j ∈ done, scopedName? d''.graph j = scopedName? d'.graph j) (name : ScopedName) :
    d.TakenBefore d'' (· ∈ done ++ [x]) i name ↔ d.TakenBefore d' (· ∈ done) i name := by
  refine or_congr_right (exists_congr fun j => ?_)
  constructor
  · rintro ⟨hj, hlt, hname⟩
    rcases List.mem_append.mp hj with hj | hj
    · exact ⟨hj, hlt, hsame j hj ▸ hname⟩
    · exact absurd (List.mem_singleton.mp hj ▸ hlt) hx
  · exact fun ⟨hj, hlt, hname⟩ => ⟨List.mem_append_left _ hj, hlt, (hsame j hj).trans hname⟩

/-- When it is the turn of an entity, the names that are taken are those of the loop. -/
theorem Renaming.mem_taken_iff {done : List EntityId} (h : d.Renaming done d' taken)
    (hturn : ∀ i ∈ done, d.turn i < d.turn x) (name : ScopedName) :
    name ∈ taken ↔ d.TakenBefore d' (· ∈ done) x name := by
  rw [h.taken]
  refine or_congr_right (exists_congr fun j => ?_)
  exact ⟨fun ⟨hj, hname⟩ => ⟨hj, hturn j hj, hname⟩, fun ⟨hj, _, hname⟩ => ⟨hj, hname⟩⟩

/-- Only the entity that gives up its name is another one then. -/
theorem entity?_rename_numbered {e : Entity} (he : d.graph.entity? x = some e) (n : Nat)
    (i : EntityId) : (d.rename x (e.numbered n).bridgeName).graph.entity? i =
      if i = x then some (e.numbered n) else d.graph.entity? i := by
  show (d.graph.modify x _).entity? i = _
  rw [Graph.entity?_modify, he]
  rfl

/-- Whoever has been given a name is not concerned by later turns. -/
theorem Numbers.concat {done : List EntityId} (h : d.Numbers d' (· ∈ done) i)
    (hx : ¬d.turn x < d.turn i) (hi : d''.graph.entity? i = d'.graph.entity? i)
    (hsame : ∀ j ∈ done, scopedName? d''.graph j = scopedName? d'.graph j) :
    d.Numbers d'' (· ∈ done ++ [x]) i := by
  obtain ⟨e, n, he, hgiven, hleast⟩ := h
  refine ⟨e, n, he, hi.trans hgiven, ?_⟩
  refine (congrArg (IsLeast · n) (Set.ext fun k => and_congr_right' (not_congr ?_))).mpr hleast
  exact takenBefore_concat hx hsame _

/-- The name that is given is taken from then on. -/
theorem Renaming.mem_cons_taken_iff {done : List EntityId} {given : ScopedName}
    (h : d.Renaming done d' taken) (hx : scopedName? d''.graph x = some given)
    (hsame : ∀ j ∈ done, scopedName? d''.graph j = scopedName? d'.graph j) (name : ScopedName) :
    name ∈ given :: taken ↔ (∃ j ∈ d.listed, scopedName? d.graph j = some name) ∨
      ∃ j ∈ done ++ [x], scopedName? d''.graph j = some name := by
  rw [List.mem_cons, h.taken, or_left_comm]
  refine or_congr_right ⟨?_, ?_⟩
  · rintro (rfl | ⟨j, hj, hname⟩)
    · exact ⟨x, List.mem_append_right _ List.mem_cons_self, hx⟩
    · exact ⟨j, List.mem_append_left _ hj, (hsame j hj).trans hname⟩
  · rintro ⟨j, hj, hname⟩
    rcases List.mem_append.mp hj with hj | hj
    · exact .inr ⟨j, hj, hsame j hj ▸ hname⟩
    · obtain rfl := List.mem_singleton.mp hj
      exact .inl (Option.some.inj (hname.symm.trans hx))

/-- One more entity is renamed, whose turn comes after all others. -/
theorem Renaming.step {done : List EntityId} {loser : ScopedName × EntityId}
    (h : d.Renaming done d' taken) (hname : scopedName? d.graph loser.2 = some loser.1)
    (hturn : ∀ i ∈ done, d.turn i < d.turn loser.2) :
    d.Renaming (done ++ [loser.2]) (renameLoser (d', taken) loser).1
      (renameLoser (d', taken) loser).2 := by
  have hx : loser.2 ∉ done := fun hx => lt_irrefl _ (hturn _ hx)
  obtain ⟨e, he, hown⟩ := Option.map_eq_some_iff.mp hname
  have hmodule : loser.1.1 = topLevelModule e.module := congrArg Prod.fst hown.symm
  have he' : d'.graph.entity? loser.2 = some e := (h.others _ hx).trans he
  obtain ⟨n, hn, hfree, hleast, hrename⟩ := renameLoser_least loser he' taken
  have hentity := entity?_rename_numbered he' n
  have hother : ∀ i ∈ done, (d'.rename loser.2 (e.numbered n).bridgeName).graph.entity? i =
      d'.graph.entity? i := fun i hi =>
    (hentity i).trans (if_neg (ne_of_mem_of_not_mem hi hx))
  have hsame : ∀ i ∈ done, scopedName? (d'.rename loser.2 (e.numbered n).bridgeName).graph i =
      scopedName? d'.graph i := fun i hi => congrArg (Option.map _) (hother i hi)
  have hgiven : scopedName? (d'.rename loser.2 (e.numbered n).bridgeName).graph loser.2 =
      some (loser.1.1, (e.numbered n).bridgeName) := by
    rw [scopedName?, hentity, if_pos rfl, hmodule]
    rfl
  rw [hrename]
  refine ⟨h.listed, ?_, h.types, ?_, fun i hi => ?_, h.mem_cons_taken_iff hgiven hsame,
    fun i hi => ?_⟩
  · exact (Array.size_modify ..).trans h.places
  · show { d'.report with renamed := d'.report.renamed + 1 } = _
    rw [h.report, List.length_append, List.length_singleton, Nat.add_assoc]
  · rw [List.mem_append, List.mem_singleton, not_or] at hi
    exact (hentity i).trans ((if_neg hi.2).trans (h.others i hi.1))
  · rcases List.mem_append.mp hi with hi | hi
    · exact (h.given i hi).concat (lt_asymm (hturn i hi)) (hother i hi) hsame
    · obtain rfl := List.mem_singleton.mp hi
      have htaken (name : ScopedName) : d.TakenBefore
          (d'.rename loser.2 (e.numbered n).bridgeName) (· ∈ done ++ [loser.2]) loser.2 name ↔
            name ∈ taken :=
        (takenBefore_concat (lt_irrefl _) hsame name).trans (h.mem_taken_iff hturn name).symm
      refine ⟨e, n, he, (hentity _).trans (if_pos rfl), ⟨hn, ?_⟩, fun k ⟨hk, hkfree⟩ => ?_⟩
      · exact hmodule ▸ mt (htaken _).mp hfree
      · rw [← hmodule] at hkfree
        exact Nat.le_of_not_lt fun hkn => hkfree ((htaken _).mpr (hleast k hk hkn))

/-- The loop renames all of a queue that is in the order of the turns. -/
theorem renaming_foldl {queue : List (ScopedName × EntityId)}
    (hstart : ∀ name, name ∈ taken ↔ ∃ j ∈ d.listed, scopedName? d.graph j = some name)
    (hname : ∀ a ∈ queue, scopedName? d.graph a.2 = some a.1)
    (hturn : queue.Pairwise fun a b => d.turn a.2 < d.turn b.2) :
    d.Renaming (queue.map Prod.snd) (queue.foldl renameLoser (d, taken)).1
      (queue.foldl renameLoser (d, taken)).2 := by
  induction queue using List.reverseRecOn with
  | nil =>
    refine ⟨rfl, rfl, rfl, rfl, fun _ _ => rfl, fun name => ?_, nofun⟩
    exact (hstart name).trans (or_iff_left nofun).symm
  | append_singleton queue loser ih =>
    obtain ⟨hbefore, -, hlast⟩ := List.pairwise_append.mp hturn
    rw [List.foldl_concat, List.map_append]
    refine (ih (fun a ha => hname a (List.mem_append_left _ ha)) hbefore).step
      (hname loser (List.mem_append_right _ List.mem_cons_self)) fun i hi => ?_
    obtain ⟨a, ha, rfl⟩ := List.mem_map.mp hi
    exact hlast a ha loser List.mem_cons_self

/-! ### The pass -/

/-- **Ranked names.** Of the listed entities with one name in a top-level module, only the one with
the first turn keeps it. Each other one is renamed: its name is followed by what stands for its kind
and by the least number for which the outcome is neither a name of its module at the start nor one
that has been given there before its turn. Nothing else changes, but for the count of the report. -/
theorem names_ranked (d : Draft) (hnodup : d.listed.Nodup) (hpopulated : d.Populated) :
    (∀ i, ¬d.Yields i → d.resolveClashes.graph.entity? i = d.graph.entity? i) ∧
    (∀ i, d.Yields i → d.Numbers d.resolveClashes d.Yields i) ∧
    d.resolveClashes.graph.slots.size = d.graph.slots.size ∧
    d.resolveClashes.graph.types = d.graph.types ∧
    d.resolveClashes.listed = d.listed ∧
    d.resolveClashes.report = { d.report with
      renamed := d.report.renamed + (d.listed.filter fun i => d.Yields i).length } := by
  have hstart (name : ScopedName) : name ∈ (d.scopedEntities.map Prod.fst).eraseDups ↔
      ∃ j ∈ d.listed, scopedName? d.graph j = some name := by
    simp only [List.mem_eraseDups, List.mem_map, Prod.exists, exists_and_right, exists_eq_right,
      mem_scopedEntities]
  have hturn := pairwise_allLosers hnodup hpopulated
  have hname : ∀ a ∈ d.allLosers, scopedName? d.graph a.2 = some a.1 := fun a ha =>
    (mem_scopedEntities.mp (mem_allLosers ha)).2
  have h := renaming_foldl hstart hname hturn
  have hyields : (· ∈ d.allLosers.map Prod.snd) = d.Yields :=
    funext fun i => propext (mem_allLosers_iff hnodup hpopulated)
  have hcount : (d.allLosers.map Prod.snd).length =
      (d.listed.filter fun i => d.Yields i).length := by
    have hqueue : (d.allLosers.map Prod.snd).Nodup :=
      List.pairwise_map.mpr (hturn.imp fun hlt => ne_of_apply_ne d.turn hlt.ne)
    refine ((List.perm_ext_iff_of_nodup hqueue (hnodup.filter _)).mpr fun i => ?_).length_eq
    rw [mem_allLosers_iff hnodup hpopulated, List.mem_filter, decide_eq_true_iff]
    exact ⟨fun h => ⟨h.1, h⟩, fun h => h.2⟩
  refine ⟨fun i hi => ?_, fun i hi => ?_, h.places, h.types, h.listed, hcount ▸ h.report⟩
  · exact h.others i (mt (mem_allLosers_iff hnodup hpopulated).mp hi)
  · exact hyields ▸ h.given i ((mem_allLosers_iff hnodup hpopulated).mpr hi)

/-- Two structs and an interface `Point`, where one of the structs is in a submodule, and a function
that has the name that such a struct would be given. -/
def sharedPoint : Draft where
  graph := {
    slots := #[some (.plain "Point" "M" (.struct [])),
      some (.plain "PointStruct" "M" (.function [⟨0⟩])),
      some (.plain "Point" "M" (.interface .empty none [])),
      some (.plain "Point" "M.Shapes" (.struct []))]
    types := #[.scalar .void] }
  listed := [⟨0⟩, ⟨1⟩, ⟨2⟩, ⟨3⟩]
  report := {}

/-- The interface keeps its name, and the struct in the submodule gets one with a number. -/
theorem names_ranked_sharedPoint : sharedPoint.listed.Nodup ∧ sharedPoint.Populated ∧
    sharedPoint.resolveClashes.graph.entity? ⟨2⟩ = sharedPoint.graph.entity? ⟨2⟩ ∧
    ∃ e n, sharedPoint.graph.entity? ⟨3⟩ = some e ∧
      sharedPoint.resolveClashes.graph.entity? ⟨3⟩ = some (e.numbered n) ∧ 1 < n := by
  have hnodup : sharedPoint.listed.Nodup := by decide
  have hpopulated : sharedPoint.Populated := by
    intro i hi
    fin_cases hi <;> exact ⟨_, rfl⟩
  obtain ⟨hkept, hnumbered, -⟩ := names_ranked sharedPoint hnodup hpopulated
  obtain ⟨e, n, he, he', ⟨hn, hfree⟩, -⟩ := hnumbered ⟨3⟩ (by decide)
  refine ⟨hnodup, hpopulated, hkept ⟨2⟩ (by decide), e, n, he, he', Nat.lt_of_le_of_ne hn ?_⟩
  -- the first candidate is the name of the function
  rintro rfl
  obtain rfl := Option.some.inj he
  exact hfree (.inl ⟨⟨1⟩, by decide, by decide⟩)

end Draft

end InteropGraph
