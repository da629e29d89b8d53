import InteropGraph.Proofs.Graph.Members
import InteropGraph.Proofs.Pass.Closed
import Mathlib.Logic.Relation

/-!
# How passes rearrange members

Whatever a pass does to the lists of members, it does in steps of one form (`Graph.Rearranges`).
Each list of each container loses some members, or is filled anew and sorted: with what it held
before, with what a category of the container holds, or with a property that the passes have made
up. A category is folded, and an entity renamed, only if it is listed at the top level; `L` is the
list. A run of passes is a chain of such steps (`Graph.Rearranged`), so what every step preserves
holds in the end.
-/

namespace InteropGraph

/-- The members of a category are the members that it has as a container. -/
theorem Entity.members?_of_category? {e : Entity} {m : Members} {extended : EntityId}
    (h : e.category? = some (m, extended)) : e.members? = some m := by
  unfold category? at h
  unfold members?
  split at h
  next hdetail =>
    cases h
    rw [hdetail]
  next => cases h

namespace Graph

variable {g g' : Graph} {L : List EntityId}

/-! ### Steps -/

/-- `additions` are the members of a listed category that extends the interface at `x`. -/
def Extension (g : Graph) (L : List EntityId) (x : EntityId) (additions : Members) : Prop :=
  ∃ c ∈ L, (g.entity? c).bind Entity.category? = some (additions, x)

/-- What is added to an interface are the members of a listed category. -/
theorem Extension.members? {x : EntityId} {additions : Members}
    (h : g.Extension L x additions) : ∃ c ∈ L, g.members? c = some additions := by
  obtain ⟨c, hc, hcategory⟩ := h
  obtain ⟨e, he, hcategory⟩ := Option.bind_eq_some_iff.mp hcategory
  exact ⟨c, hc, members?_eq_some_iff.mpr ⟨e, he, Entity.members?_of_category? hcategory⟩⟩

/-- A property of instances that stands for no declaration. -/
structure MadeUp (g : Graph) (k : MemberList) (i : EntityId) : Prop where
  list : k = .instanceProperties
  entity : ∃ e, g.entity? i = some e ∧ e.source = none ∧ e.kind = .property ∧
    e.flags.static = false

/-- What may become of the list `k` of the container at `x`, which has the members `m`. -/
inductive Relists (L : List EntityId) (g g' : Graph) (x : EntityId) (m : Members) (k : MemberList)
    (ids : List EntityId) : Prop where
  | less (sublist : ids.Sublist (m.list k))
  | anew (mem : ∀ i ∈ ids, i ∈ m.list k ∨
        (∃ additions, g.Extension L x additions ∧ i ∈ additions.list k) ∨ g'.MadeUp k i)
      (sorted : g'.Sorted ids)

/-- The graph `g'` comes from `g` in one step of a pass. -/
structure Rearranges (L : List EntityId) (g g' : Graph) : Prop where
  retains : g.Retains g'
  name : ∀ {i e e'}, i ∉ L → g.entity? i = some e → g'.entity? i = some e' →
    e'.bridgeName = e.bridgeName
  members : ∀ {x m'}, g'.members? x = some m' → ∃ m, g.members? x = some m ∧
    (∀ k, Relists L g g' x m k (m'.list k)) ∧ ∀ i ∈ m'.protocols, i ∈ m.protocols ∨
      ∃ additions, g.Extension L x additions ∧ i ∈ additions.protocols

/-- The graph `g'` comes from `g` in a row of steps. -/
abbrev Rearranged (L : List EntityId) : Graph → Graph → Prop :=
  Relation.ReflTransGen (Rearranges L)

/-- Whatever is rearranged, the entities keep their origins. -/
theorem Rearranged.retains (h : g.Rearranged L g') : g.Retains g' := by
  induction h with
  | refl => exact .refl g
  | tail _ hstep ih => exact ih.trans hstep.retains

namespace Rearranges

/-- Entities change in what neither their origin nor their members determine, and only listed ones
get other names. -/
theorem modify {id : EntityId} {f : Entity → Entity} (horigin : ∀ e : Entity, e.SameOrigin (f e))
    (hmembers : ∀ e : Entity, (f e).members? = e.members?)
    (hname : id ∉ L → ∀ e : Entity, (f e).bridgeName = e.bridgeName) :
    g.Rearranges L (g.modify id f) where
  retains := .modify g id horigin
  name {i e e'} hi he he' := by
    rw [entity?_modify] at he'
    by_cases hid : i = id
    · subst hid
      rw [if_pos rfl, he] at he'
      cases he'
      exact hname hi e
    · rw [if_neg hid, he] at he'
      cases he'
      rfl
  members {x m'} hm' := by
    rw [members?, g.bind_entity?_modify id hmembers] at hm'
    exact ⟨m', hm', fun _ => .less (List.Sublist.refl _), fun _ => .inl⟩

/-- One container gets other members. -/
theorem mapMembers {id : EntityId} {f : Members → Members}
    (hlists : ∀ m, g.members? id = some m → ∀ k,
      Relists L g (g.mapMembers id f) id m k ((f m).list k))
    (hprotocols : ∀ m, g.members? id = some m → ∀ i ∈ (f m).protocols, i ∈ m.protocols ∨
      ∃ additions, g.Extension L id additions ∧ i ∈ additions.protocols) :
    g.Rearranges L (g.mapMembers id f) where
  retains := .mapMembers g id f
  name {i e e'} _ he he' := by
    unfold Graph.mapMembers at he'
    rw [entity?_modify] at he'
    by_cases hid : i = id
    · rw [if_pos hid, ← hid, he] at he'
      cases he'
      rfl
    · rw [if_neg hid, he] at he'
      cases he'
      rfl
  members {x m'} hm' := by
    rw [members?_mapMembers] at hm'
    by_cases hid : x = id
    · subst hid
      rw [if_pos rfl] at hm'
      obtain ⟨m, hm, rfl⟩ := Option.map_eq_some_iff.mp hm'
      exact ⟨m, hm, hlists m hm, hprotocols m hm⟩
    · rw [if_neg hid] at hm'
      exact ⟨m', hm', fun _ => .less (List.Sublist.refl _), fun _ => .inl⟩

/-- An entity is added that stands for no declaration and is no container. -/
theorem insert {e : Entity} (hsource : e.source = none) (hmembers : e.members? = none) :
    g.Rearranges L (g.insert e).2 where
  retains := .insert g hsource
  name {i e₁ e₂} _ he₁ he₂ := by
    have hne : i ≠ (g.insert e).1 := by
      rintro rfl
      cases (g.entity?_insert_fst e).symm.trans he₁
    rw [entity?_insert, if_neg hne, he₁] at he₂
    cases he₂
    rfl
  members {x m'} hm' := by
    rw [members?, g.bind_entity?_insert hmembers] at hm'
    exact ⟨m', hm', fun _ => .less (List.Sublist.refl _), fun _ => .inl⟩

end Rearranges

/-- Names only change for what is listed, so that everything else stays sorted. -/
theorem Rearranges.sorted (h : g.Rearranges L g') {ids : List EntityId}
    (hids : ∀ i ∈ ids, i ∉ L ∧ ∃ e, g.entity? i = some e) (hsorted : g.Sorted ids) :
    g'.Sorted ids := by
  have hkey {i : EntityId} (hi : i ∈ ids) : g'.sortKey i = g.sortKey i := by
    obtain ⟨hL, e, he⟩ := hids i hi
    obtain ⟨e', he', -⟩ := h.retains.kept he
    unfold sortKey bridgeName
    rw [he, he', Option.map_some, Option.map_some, h.name hL he he']
  refine hsorted.imp_of_mem fun {i j} hi hj hij => ?_
  rw [hkey hi, hkey hj]
  exact hij

end Graph

/-! ### Passes -/

namespace Draft

variable {d : Draft} {L : List EntityId}

/-- Steps that rearrange the graph do so in a row. -/
theorem rearranged_foldl {α : Type} {step : Draft → α → Draft} {l : List α}
    (hstep : ∀ d : Draft, ∀ x ∈ l, d.graph.Rearranged L (step d x).graph) (d : Draft) :
    d.graph.Rearranged L (l.foldl step d).graph :=
  rel_foldl (R := fun d d' => d.graph.Rearranged L d'.graph) (fun _ => .refl)
    (fun h h' => h.trans h') hstep d

/-- A container with fewer members is a rearranged one. -/
theorem Drops.rearranged {d' : Draft} {id : EntityId} (h : d.Drops id d') :
    d.graph.Rearranged L d'.graph := by
  cases h with
  | other => exact .refl
  | @members m after hm hlists hprotocols =>
    refine .single (.mapMembers (fun m' hm' k => ?_) fun m' hm' i hi => ?_)
    · obtain rfl : m = m' := Option.some.inj (hm.symm.trans hm')
      exact .less (hlists k)
    · obtain rfl : m = m' := Option.some.inj (hm.symm.trans hm')
      exact .inl (hprotocols ▸ hi)

/-- A name is given to what is listed. -/
theorem rearranged_rename {id : EntityId} (hid : id ∈ L) (name : String) :
    d.graph.Rearranged L (d.rename id name).graph := by
  let renamed (e : Entity) : Entity := { e with bridgeName := name, renamed := true }
  have horigin (e : Entity) : e.SameOrigin (renamed e) := ⟨rfl, rfl, rfl, rfl, rfl⟩
  exact .single (.modify horigin (fun _ => rfl) fun h => absurd hid h)

/-- A protocol is renamed at most. -/
theorem rearranged_separateProtocol (interfaces : List (String × String)) (d : Draft)
    {id : EntityId} (hid : id ∈ L) :
    d.graph.Rearranged L (d.separateProtocol interfaces id).graph := by
  obtain h | ⟨e, -, h⟩ := d.separateProtocol_cases interfaces id <;> rw [h]
  exact rearranged_rename hid _

/-- The lists of the interface are filled anew with its members and those of the category. -/
theorem rearranged_foldCategory (d : Draft) {id : EntityId} (hid : id ∈ L) :
    d.graph.Rearranged L (d.foldCategory id).graph := by
  obtain h | ⟨additions, extended, m, hc, hm, h⟩ := d.foldCategory_cases id <;> rw [h]
  have hextension : d.graph.Extension L extended additions := ⟨id, hid, hc⟩
  refine .single (.mapMembers (fun m' hm' k => ?_) fun m' hm' i hi => ?_)
  · obtain rfl : m = m' := Option.some.inj (hm.symm.trans hm')
    have hlist : (d.graph.sortMembers (m.append additions)).list k =
        d.graph.sortByName (m.list k ++ additions.list k) := by
      unfold Graph.sortMembers
      rw [Members.list_mapLists, Members.list_append]
    rw [hlist]
    refine .anew (fun i hi => ?_)
      (Graph.sorted_mapMembers (d.graph.sorted_sortByName _) extended _)
    rcases List.mem_append.mp ((Graph.mem_sortByName d.graph).mp hi) with hi | hi
    · exact .inl hi
    · exact .inr (.inl ⟨additions, hextension, hi⟩)
  · obtain rfl : m = m' := Option.some.inj (hm.symm.trans hm')
    exact (mem_appendNew hi).imp_right fun hi => ⟨additions, hextension, hi⟩

/-- The accessors are marked, the property is added, and the ancestor lists it instead of them. -/
theorem rearranged_wrapAccessors (d : Draft) (ancestor : EntityId) (module : String)
    (template : Entity) (getter setter : Option EntityId) :
    d.graph.Rearranged L (d.wrapAccessors ancestor module template getter setter).graph := by
  let accessors := getter.toList ++ setter.toList
  let isOptional := accessors.any fun m => (d.graph.entity? m).any (·.flags.optional)
  let property := template.propertyAround module getter setter isOptional
  let marked := d.graph.markAccessors accessors
  have hmarked : d.graph.Rearranged L marked :=
    Graph.markAccessors_induction (motive := fun g => d.graph.Rearranged L g) .refl
      fun _ h _ _ => h.tail (.modify .asAccessor (fun _ => rfl) fun _ _ => rfl)
  have hinserted : marked.Rearranges L (marked.insert property).2 := .insert rfl rfl
  refine (hmarked.tail hinserted).tail (.mapMembers (fun m hm k => ?_) fun m hm i hi => .inl hi)
  cases k with
  | instanceMethods => exact .less List.filter_sublist
  | staticMethods | staticProperties => exact .less (List.Sublist.refl _)
  | instanceProperties =>
    refine .anew (fun i hi => ?_) ?_
    · rcases List.mem_append.mp ((Graph.mem_sortByName _).mp hi) with hi | hi
      · exact .inl hi
      · obtain rfl := List.mem_singleton.mp hi
        -- the property is in the graph when the ancestor comes to list it
        obtain ⟨e, he, hsame⟩ := (Graph.Retains.mapMembers (marked.insert property).2 ancestor
          _).kept (by rw [Graph.entity?_insert, if_pos rfl])
        exact .inr (.inr ⟨rfl, e, he, hsame.source, hsame.kind, hsame.static⟩)
    · exact Graph.sorted_mapMembers (Graph.sorted_sortByName _ _) ancestor _

/-- The properties that are added stand for no declaration. -/
theorem rearranged_alignAncestors (d : Draft) (id : EntityId) :
    d.graph.Rearranged L (d.alignAncestors id).graph := by
  refine alignAncestors_induction (motive := fun d' => d.graph.Rearranged L d'.graph) .refl
    fun d' hd' template selectors a _ => ?_
  obtain ⟨h, -⟩ | ⟨_, _, _, _, -, h⟩ := d'.addProperty_cases template selectors a <;> rw [h]
  · exact hd'
  · exact hd'.trans (rearranged_wrapAccessors d' a _ template _ _)

/-- What is reported changes no graph. -/
theorem graph_reportOverloads (d : Draft) (id : EntityId) :
    (d.reportOverloads id).graph = d.graph := by
  unfold reportOverloads
  cases d.graph.entity? id <;> rfl

/-- An interface adds properties to its ancestors and loses static methods itself. -/
theorem rearranged_alignInterface (d : Draft) (id : EntityId) :
    d.graph.Rearranged L (d.alignInterface id).graph := by
  unfold alignInterface
  by_cases hkind : d.graph.kind? id = some .interface
  · rw [if_pos hkind, graph_reportOverloads]
    exact (rearranged_alignAncestors d id).trans (drops_dropShadowed _ id).rearranged
  · rw [if_neg hkind]

/-! ### Passes -/

theorem rearranged_dropReserved (d : Draft) : d.graph.Rearranged L d.dropReserved.graph :=
  rearranged_foldl (fun d id _ => (d.drops_dropReservedFrom id).rearranged) d

/-- Only listed entities are looked at. -/
theorem rearranged_separateProtocols (h : d.listed ⊆ L) :
    d.graph.Rearranged L d.separateProtocols.graph :=
  rearranged_foldl (fun d' _ hid => rearranged_separateProtocol d.interfaceNames d' (h hid)) d

/-- Only listed categories add members to their interfaces. -/
theorem rearranged_foldCategories (h : d.listed ⊆ L) :
    d.graph.Rearranged L d.foldCategories.graph :=
  rearranged_foldl (fun d _ hid => rearranged_foldCategory d (h hid)) d

theorem rearranged_dropRedundant (d : Draft) : d.graph.Rearranged L d.dropRedundant.graph :=
  rearranged_foldl (fun d id _ => (d.drops_dropRedundantFrom id).rearranged) d

theorem rearranged_alignAccessors (d : Draft) : d.graph.Rearranged L d.alignAccessors.graph :=
  rearranged_foldl (fun d id _ => rearranged_alignInterface d id) d

/-- Only listed entities are renamed. -/
theorem rearranged_resolveClashes (h : d.listed ⊆ L) :
    d.graph.Rearranged L d.resolveClashes.graph :=
  resolveClashes_induction (motive := fun d' => d.graph.Rearranged L d'.graph) .refl
    fun _ hd' _ hid name => hd'.trans (rearranged_rename (h hid) name)

/-- All that happens after the reserved methods are gone. -/
theorem rearranged_afterReserved (d : Draft) :
    d.dropReserved.graph.Rearranged d.listed d.finish.graph := by
  have hlisted : d.dropReserved.listed ⊆ d.listed := by
    rw [(same_dropReserved d).listed]
    exact List.Subset.refl _
  have hseparated : d.applyReserved.listed ⊆ d.listed := by
    rw [(same_applyReserved d).listed]
    exact List.Subset.refl _
  have hfolded : d.applyReserved.foldCategories.listed ⊆ d.listed :=
    List.Subset.trans (List.filter_subset_self _) hseparated
  have haligned :
      d.applyReserved.foldCategories.dropRedundant.alignAccessors.listed ⊆ d.listed := by
    rw [listed_alignAccessors, (same_dropRedundant _).listed]
    exact hfolded
  exact rearranged_separateProtocols hlisted
    |>.trans (rearranged_foldCategories hseparated)
    |>.trans (rearranged_dropRedundant _)
    |>.trans (rearranged_alignAccessors _)
    |>.trans (rearranged_resolveClashes haligned)

/-- All five passes together. -/
theorem rearranged_finish (d : Draft) : d.graph.Rearranged d.listed d.finish.graph :=
  (rearranged_dropReserved d).trans (rearranged_afterReserved d)

end Draft

end InteropGraph
