import InteropGraph.Proofs.Pass.Retains
import Mathlib.Data.List.Induction

/-!
# Folded categories

Categories are folded one after the other, and the lists of an interface are sorted after each of
them. In the end the interface has what it had, followed by what all its categories have, sorted
once (`Graph.list_mergeAll`). If categories only extend interfaces, no category changes while others
are folded, so that what each of them adds can be read off the graph at the start (`Draft.Folded`).
-/

namespace InteropGraph

/-! ### Members of entities -/

namespace Entity

variable {e : Entity} {f f' : Members → Members}

theorem mapMembers_mapMembers (e : Entity) (f f' : Members → Members) :
    (e.mapMembers f).mapMembers f' = e.mapMembers fun m => f' (f m) := by
  unfold mapMembers
  cases e.detail <;> rfl

/-- Only what a change does to the members that are there matters. -/
theorem mapMembers_congr {m : Members} (hm : e.members? = some m) (h : f m = f' m) :
    e.mapMembers f = e.mapMembers f' := by
  unfold members? at hm
  unfold mapMembers
  cases hdetail : e.detail <;> rw [hdetail] at hm <;> cases hm <;> dsimp only <;> rw [h]

theorem mapMembers_self (e : Entity) : (e.mapMembers fun m => m) = e := by
  unfold mapMembers
  rcases e with ⟨_, _, _, _, _, _, _, _, _, _, _, detail⟩
  cases detail <;> rfl

/-- What has the members of a category has its kind. -/
theorem category?_isSome (e : Entity) : e.category?.isSome = decide (e.kind = .category) := by
  unfold category? kind
  cases e.detail <;> rfl

/-- A change of members makes no category and unmakes none. -/
theorem category?_mapMembers_eq_none_iff (e : Entity) (f : Members → Members) :
    (e.mapMembers f).category? = none ↔ e.category? = none := by
  rw [← Option.not_isSome_iff_eq_none, ← Option.not_isSome_iff_eq_none, category?_isSome,
    category?_isSome, (SameOrigin.mapMembers e f).kind]

end Entity

namespace Graph

/-- The members of a container after each of the additions has been merged in its turn. -/
def mergeAll (g : Graph) (additions : List Members) (m : Members) : Members :=
  additions.foldl (fun m a => g.sortMembers (m.append a)) m

/-- The members of the last category are added last, and sorted in with the others. -/
theorem mergeAll_concat (g : Graph) (additions : List Members) (a m : Members) :
    g.mergeAll (additions ++ [a]) m = g.sortMembers ((g.mergeAll additions m).append a) :=
  List.foldl_concat ..

/-- To merge one addition after the other is to sort once. -/
theorem list_mergeAll (g : Graph) {additions : List Members} (h : additions ≠ []) (m : Members)
    (k : MemberList) : (g.mergeAll additions m).list k =
      g.sortByName (m.list k ++ additions.flatMap (·.list k)) := by
  induction additions using List.reverseRecOn with
  | nil => exact absurd rfl h
  | append_singleton additions a ih =>
    rw [mergeAll_concat, sortMembers, Members.list_mapLists, Members.list_append,
      List.flatMap_append, List.flatMap_singleton, ← List.append_assoc]
    by_cases hnil : additions = []
    · subst hnil
      rw [List.flatMap_nil, List.append_nil]
      rfl
    · rw [ih hnil, sortByName_append]

/-- Protocols are not sorted: they come in order, each where it comes up first. -/
theorem protocols_mergeAll (g : Graph) (additions : List Members) (m : Members) :
    (g.mergeAll additions m).protocols =
      appendNew m.protocols (additions.flatMap Members.protocols) := by
  induction additions using List.reverseRecOn with
  | nil => rfl
  | append_singleton additions a ih =>
    rw [mergeAll_concat, List.flatMap_append, List.flatMap_singleton, ← appendNew_append, ← ih]
    rfl

/-- Sorting looks at bridge names only. -/
theorem sortMembers_congr {g g' : Graph} (h : ∀ i, g'.bridgeName i = g.bridgeName i) :
    g'.sortMembers = g.sortMembers := by
  have hkey : g'.sortKey = g.sortKey := funext fun i => congrArg Text.lowercase (h i)
  unfold sortMembers sortByName
  rw [hkey]

end Graph

namespace Draft

variable {d d' : Draft} {ids : List EntityId} {x c : EntityId} {a m : Members}

/-- The members of the category at `c`, if it extends `x`. -/
def extension? (d : Draft) (x c : EntityId) : Option Members :=
  (d.category? c).bind fun (additions, extended) => if extended = x then some additions else none

/-- The members of the categories that extend `x`, in the order of the categories. -/
def extensions (d : Draft) (ids : List EntityId) (x : EntityId) : List Members :=
  ids.filterMap (d.extension? x)

/-- All that the categories among `ids` extend are interfaces. -/
def ExtendsInterfaces (d : Draft) (ids : List EntityId) : Prop :=
  ∀ c ∈ ids, ∀ a x, d.category? c = some (a, x) → d.graph.kind? x = some .interface

/-- A category extends the container that it names, by its own members. -/
theorem extension?_eq_some_iff : d.extension? x c = some a ↔ d.category? c = some (a, x) := by
  unfold extension?
  cases d.category? c with
  | none => exact ⟨nofun, nofun⟩
  | some category =>
    rw [Option.bind_some, Option.ite_none_right_eq_some, Option.some.injEq, Option.some.injEq,
      Prod.ext_iff, and_comm]

theorem extension?_of_category (hc : d.category? c = some (a, x)) (y : EntityId) :
    d.extension? y c = if x = y then some a else none := by
  unfold extension?
  rw [hc]
  rfl

/-- What extends a container are the listed categories that name it. -/
theorem mem_extensions : a ∈ d.extensions ids x ↔ ∃ c ∈ ids, d.category? c = some (a, x) := by
  unfold extensions
  rw [List.mem_filterMap]
  exact exists_congr fun c => and_congr_right' extension?_eq_some_iff

/-- The last entry counts if it is a category of the container. -/
theorem extensions_concat (d : Draft) (ids : List EntityId) (c x : EntityId) :
    d.extensions (ids ++ [c]) x = d.extensions ids x ++ (d.extension? x c).toList := by
  unfold extensions
  rw [List.filterMap_append]
  cases h : d.extension? x c <;> simp [h]

/-- Only interfaces are extended. -/
theorem ExtendsInterfaces.extensions_eq_nil (h : d.ExtendsInterfaces ids)
    (hx : d.graph.kind? x ≠ some .interface) : d.extensions ids x = [] := by
  refine List.eq_nil_iff_forall_not_mem.mpr fun a ha => ?_
  obtain ⟨c, hc, hcategory⟩ := mem_extensions.mp ha
  exact hx (h c hc a x hcategory)

/-- What has become of a draft when the categories among `ids` have been folded. -/
structure Folded (d : Draft) (ids : List EntityId) (d' : Draft) : Prop where
  entity : ∀ x, d'.graph.entity? x =
    (d.graph.entity? x).map (·.mapMembers (d.graph.mergeAll (d.extensions ids x)))
  places : d'.graph.slots.size = d.graph.slots.size
  types : d'.graph.types = d.graph.types
  listed : d'.listed = d.listed
  report : d'.report = { d.report with mergedCategories :=
    d.report.mergedCategories + (ids.filter fun c => (d.category? c).isSome).length }

namespace Folded

theorem refl (d : Draft) : d.Folded [] d where
  entity x := by
    have hself : (fun e : Entity => e.mapMembers (d.graph.mergeAll (d.extensions [] x))) = id :=
      funext Entity.mapMembers_self
    rw [hself, Option.map_id, id]
  places := rfl
  types := rfl
  listed := rfl
  report := rfl

/-- Folding gives no names. -/
theorem bridgeName (h : d.Folded ids d') (i : EntityId) :
    d'.graph.bridgeName i = d.graph.bridgeName i := by
  unfold Graph.bridgeName
  rw [h.entity, Option.map_map]
  rfl

/-- A container lists its own members and those of all categories of it that have been folded. -/
theorem members? (h : d.Folded ids d') (hm : d.graph.members? x = some m) :
    d'.graph.members? x = some (d.graph.mergeAll (d.extensions ids x) m) := by
  obtain ⟨e, he, hm⟩ := Graph.members?_eq_some_iff.mp hm
  refine Graph.members?_eq_some_iff.mpr ⟨_, by rw [h.entity, he]; rfl, ?_⟩
  rw [Entity.members?_mapMembers, hm, Option.map_some]

/-- Categories are never extended, so they stay as they are. -/
theorem category? (h : d.Folded ids d') (hids : d.ExtendsInterfaces ids) (c : EntityId) :
    d'.category? c = d.category? c := by
  unfold Draft.category?
  rw [h.entity]
  cases he : d.graph.entity? c with
  | none => rfl
  | some e =>
    rw [Option.map_some, Option.bind_some, Option.bind_some]
    by_cases hkind : e.kind = .category
    · have hnil : d.extensions ids c = [] := hids.extensions_eq_nil (by
        rw [Graph.kind?, he, Option.map_some, hkind]
        decide)
      rw [hnil]
      exact congrArg Entity.category? e.mapMembers_self
    · have hnone : e.category? = none := by
        rw [← Option.not_isSome_iff_eq_none, e.category?_isSome, decide_eq_true_iff]
        exact hkind
      rw [hnone, Entity.category?_mapMembers_eq_none_iff, hnone]

/-- Anything but a category leaves the graph alone. -/
theorem skip (h : d.Folded ids d') (hc : d.category? c = none) : d.Folded (ids ++ [c]) d' := by
  have hextensions (x : EntityId) : d.extensions (ids ++ [c]) x = d.extensions ids x := by
    have hnone : d.extension? x c = none := by rw [extension?, hc, Option.bind_none]
    rw [extensions_concat, hnone, Option.toList_none, List.append_nil]
  refine ⟨fun x => ?_, h.places, h.types, h.listed, ?_⟩
  · rw [hextensions, h.entity]
  · rw [List.filter_append, List.filter_singleton, hc]
    simpa using h.report

/-- One category more: its members go to the container that it extends, and to no other. -/
theorem merge (h : d.Folded ids d') (hc : d.category? c = some (a, x))
    (hm : d.graph.members? x = some m) : d.Folded (ids ++ [c]) { d' with
      graph := d'.graph.mapMembers x fun _ =>
        d'.graph.sortMembers ((d.graph.mergeAll (d.extensions ids x) m).append a)
      report := { d'.report with mergedCategories := d'.report.mergedCategories + 1 } } where
  entity y := by
    obtain ⟨e, he, hem⟩ := Graph.members?_eq_some_iff.mp hm
    rw [extensions_concat, extension?_of_category hc, Graph.mapMembers, Graph.entity?_modify]
    by_cases hy : y = x
    · subst hy
      rw [if_pos rfl, if_pos rfl, h.entity, he, Option.map_some, Option.map_some, Option.map_some,
        Option.toList_some, Entity.mapMembers_mapMembers]
      refine congrArg some (Entity.mapMembers_congr hem ?_)
      rw [Graph.mergeAll_concat, Graph.sortMembers_congr h.bridgeName]
    · rw [if_neg hy, if_neg (Ne.symm hy), Option.toList_none, List.append_nil, h.entity]
  places := by
    show (d'.graph.slots.modify _ _).size = _
    rw [Array.size_modify, h.places]
  types := h.types
  listed := h.listed
  report := by
    dsimp only
    rw [h.report, List.filter_append, List.filter_singleton, hc]
    simp [Nat.add_assoc]

/-- One more category is folded, or nothing happens. -/
theorem step (h : d.Folded ids d') (hids : d.ExtendsInterfaces (ids ++ [c])) :
    d.Folded (ids ++ [c]) (d'.foldCategory c) := by
  have hcategory := h.category? (fun b hb => hids b (List.mem_append_left _ hb)) c
  unfold foldCategory
  rw [hcategory]
  cases hc : d.category? c with
  | none => exact h.skip hc
  | some category =>
    obtain ⟨a, x⟩ := category
    -- what it extends is an interface, so it has members
    have hkind := hids c (List.mem_append_right _ List.mem_cons_self) a x hc
    obtain ⟨e, he, hkind⟩ := Option.map_eq_some_iff.mp hkind
    obtain ⟨m, hm⟩ := Entity.exists_members?_iff.mpr (.inl hkind)
    have hm : d.graph.members? x = some m := Graph.members?_eq_some_iff.mpr ⟨e, he, hm⟩
    dsimp only
    rw [h.members? hm]
    exact h.merge hc hm

end Folded

/-- The run: all categories of the list are folded, one after the other. -/
theorem folded_foldl (hids : d.ExtendsInterfaces ids) :
    d.Folded ids (ids.foldl foldCategory d) := by
  induction ids using List.reverseRecOn with
  | nil => exact .refl d
  | append_singleton ids c ih =>
    rw [List.foldl_concat]
    exact (ih fun b hb => hids b (List.mem_append_left _ hb)).step hids

/-! ### The pass -/

theorem category?_isSome (d : Draft) (c : EntityId) :
    (d.category? c).isSome = decide (d.graph.kind? c = some .category) := by
  unfold Draft.category? Graph.kind?
  cases d.graph.entity? c with
  | none => rfl
  | some e =>
    rw [Option.bind_some, e.category?_isSome, Option.map_some]
    exact decide_eq_decide.mpr (Option.some.injEq _ _ ▸ Iff.rfl)

/-- **Folded categories.** If the listed categories extend interfaces, the categories are gone from
the list. Each of the interfaces has the methods and properties that it has had, followed by those
of its categories in the order of the list, sorted; and its protocols are followed by those of its
categories that it lacks, each once. Nothing else changes. -/
theorem categories_folded (d : Draft) (h : d.ExtendsInterfaces d.listed) :
    d.foldCategories.listed = d.listed.filter (fun id => d.graph.kind? id ≠ some .category) ∧
    (∀ x, (∃ c ∈ d.listed, ∃ a, d.category? c = some (a, x)) → ∃ e m m',
      d.graph.entity? x = some e ∧ e.members? = some m ∧
        d.foldCategories.graph.entity? x = some (e.mapMembers fun _ => m') ∧
          (∀ k, StableSort d.graph.sortKey
            (m.list k ++ (d.extensions d.listed x).flatMap (·.list k)) (m'.list k)) ∧
            m'.protocols = m.protocols ++ (((d.extensions d.listed x).flatMap
              Members.protocols).filter (· ∉ m.protocols)).eraseDups) ∧
    (∀ x, (¬∃ c ∈ d.listed, ∃ a, d.category? c = some (a, x)) →
      d.foldCategories.graph.entity? x = d.graph.entity? x) ∧
    d.foldCategories.graph.slots.size = d.graph.slots.size ∧
    d.foldCategories.graph.types = d.graph.types ∧
    d.foldCategories.report = { d.report with mergedCategories := d.report.mergedCategories +
      (d.listed.filter fun id => d.graph.kind? id = some .category).length } := by
  have hfolded : d.Folded d.listed (d.forListed foldCategory) := folded_foldl h
  have hgraph : d.foldCategories.graph = (d.forListed foldCategory).graph := rfl
  have hextended (x : EntityId) : (∃ c ∈ d.listed, ∃ a, d.category? c = some (a, x)) ↔
      d.extensions d.listed x ≠ [] := by
    rw [ne_eq, List.eq_nil_iff_forall_not_mem]
    push Not
    simp only [mem_extensions]
    exact ⟨fun ⟨c, hc, a, ha⟩ => ⟨a, c, hc, ha⟩, fun ⟨a, c, hc, ha⟩ => ⟨c, hc, a, ha⟩⟩
  refine ⟨?_, fun x hx => ?_, fun x hx => ?_, hfolded.places, hfolded.types, ?_⟩
  · refine List.filter_congr fun id _ => ?_
    rw [← Option.not_isSome, category?_isSome, decide_not]
  · have hne := (hextended x).mp hx
    obtain ⟨c, hc, a, hcategory⟩ := hx
    obtain ⟨e, he, hkind⟩ := Option.map_eq_some_iff.mp (h c hc a x hcategory)
    obtain ⟨m, hm⟩ := Entity.exists_members?_iff.mpr (.inl hkind)
    refine ⟨e, m, d.graph.mergeAll (d.extensions d.listed x) m, he, hm, ?_, fun k => ?_, ?_⟩
    · rw [hgraph, hfolded.entity, he]
      exact congrArg some (Entity.mapMembers_congr hm rfl)
    · rw [Graph.list_mergeAll _ hne]
      exact d.graph.stableSort_sortByName _
    · rw [Graph.protocols_mergeAll, appendNew_eq]
  · have hnil : d.extensions d.listed x = [] := not_not.mp (mt (hextended x).mpr hx)
    rw [hgraph, hfolded.entity, hnil]
    exact (Folded.refl d).entity x ▸ rfl
  · refine hfolded.report.trans ?_
    simp only [category?_isSome]

/-- An interface with two categories, one listed before it and one after it, that bring methods of
one name and share a protocol. -/
def twoCategories : Draft where
  graph := {
    slots := #[some (.plain "bold" "M" (.method [⟨0⟩] [])),
      some (.plain "Title" "M" (.method [⟨0⟩] [])), some (.plain "bold" "M" (.method [⟨0⟩] [])),
      some (.plain "Named" "M" (.protocol .empty)), some (.plain "Styled" "M" (.protocol .empty)),
      some (.plain "Label" "M" (.interface
        { Members.empty with instanceMethods := [⟨1⟩], protocols := [⟨3⟩] } none [])),
      some (.plain "Fonts" "M" (.category
        { Members.empty with instanceMethods := [⟨2⟩], protocols := [⟨4⟩, ⟨3⟩] } ⟨5⟩)),
      some (.plain "Styles" "M" (.category
        { Members.empty with instanceMethods := [⟨0⟩], protocols := [⟨4⟩] } ⟨5⟩))]
    types := #[.scalar .void] }
  listed := [⟨6⟩, ⟨5⟩, ⟨7⟩]
  report := {}

/-- The interface has the methods of both categories behind its own before they are sorted, and
lists the protocol that they share once. -/
theorem categories_folded_twoCategories : twoCategories.ExtendsInterfaces twoCategories.listed ∧
    twoCategories.foldCategories.listed = [⟨5⟩] ∧
    ∃ m', twoCategories.foldCategories.graph.members? ⟨5⟩ = some m' ∧
      StableSort twoCategories.graph.sortKey [⟨1⟩, ⟨2⟩, ⟨0⟩] m'.instanceMethods ∧
        m'.protocols = [⟨3⟩, ⟨4⟩] := by
  have hextends : twoCategories.ExtendsInterfaces twoCategories.listed := by
    intro c hc a x hcategory
    obtain rfl | rfl | rfl : c = ⟨6⟩ ∨ c = ⟨5⟩ ∨ c = ⟨7⟩ := by simpa [twoCategories] using hc
    all_goals cases hcategory
    all_goals rfl
  obtain ⟨hlisted, hinterfaces, -⟩ := categories_folded twoCategories hextends
  obtain ⟨e, m, m', he, hm, he', hlists, hprotocols⟩ :=
    hinterfaces ⟨5⟩ ⟨⟨6⟩, by decide, _, rfl⟩
  cases he
  cases hm
  refine ⟨hextends, hlisted.trans (by decide), m', ?_, hlists .instanceMethods,
    hprotocols.trans (by decide)⟩
  rw [Graph.members?, he']
  rfl

end Draft

end InteropGraph
