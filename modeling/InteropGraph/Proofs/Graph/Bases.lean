import InteropGraph.Graph.Basic
import InteropGraph.Pass.Draft
import InteropGraph.Proofs.Graph.Basic
import InteropGraph.Unseen
import Mathlib.Logic.Relation

/-!
# The chain of bases

The bases of an interface are found by a walk up that ends where it would visit an entity for the
second time (`Graph.Climbs`). It ends on every graph, however cyclic the bases are, and the bound of
`Graph.bases` never cuts it short. What it finds is all there is above the interface
(`mem_bases_iff`).
-/

namespace InteropGraph.Graph

variable {g : Graph} {x c : EntityId}

/-- The interface at `x` has the base `y`. -/
def Base (g : Graph) (x y : EntityId) : Prop :=
  (g.entity? x).bind Entity.base? = some y

/-- There is an entity at `c` in the chain of bases of `x`, and it is not `x` itself. -/
structure Above (g : Graph) (x c : EntityId) : Prop where
  chain : Relation.TransGen g.Base x c
  ne : c ≠ x
  populated : ∃ e, g.entity? c = some e

/-- The walk up from some base, where `visited` are not visited again, comes to the entities in a
list and ends. -/
inductive Climbs (g : Graph) : List EntityId → Option EntityId → List EntityId → Prop
  | top {visited} : Climbs g visited none []
  | again {visited id} (seen : id ∈ visited) : Climbs g visited (some id) []
  | vacant {visited id} (unseen : id ∉ visited) (vacant : g.entity? id = none) :
      Climbs g visited (some id) []
  | up {visited id e ids} (unseen : id ∉ visited) (found : g.entity? id = some e)
      (rest : Climbs g (id :: visited) e.base? ids) : Climbs g visited (some id) (id :: ids)

/-- The places of a graph. -/
def places (g : Graph) : List EntityId :=
  (List.range g.slots.size).map EntityId.mk

theorem mem_places {id : EntityId} {e : Entity} (h : g.entity? id = some e) : id ∈ g.places :=
  List.mem_map.mpr ⟨id.index, List.mem_range.mpr (index_lt_of_entity? h), rfl⟩

/-- The walk ends, since it never comes to a place again. -/
theorem climbs_basesFrom {fuel : Nat} {visited : List EntityId} (current : Option EntityId)
    (hfuel : unseen g.places visited < fuel) :
    g.Climbs visited current (g.basesFrom fuel visited current) := by
  induction fuel generalizing visited current with
  | zero => cases hfuel
  | succ fuel ih =>
    cases current with
    | none => exact .top
    | some id =>
      unfold basesFrom
      by_cases hseen : id ∈ visited
      · rw [if_pos hseen]
        exact .again hseen
      · rw [if_neg hseen]
        cases he : g.entity? id with
        | none => exact .vacant hseen he
        | some e =>
          refine .up hseen he (ih e.base? ?_)
          exact Nat.lt_of_lt_of_le (unseen_cons_lt (mem_places he) hseen) (Nat.le_of_lt_succ hfuel)

theorem climbs_bases (g : Graph) (x : EntityId) :
    g.Climbs [x] ((g.entity? x).bind Entity.base?) (g.bases x) := by
  refine climbs_basesFrom _ (Nat.lt_succ_of_le ?_)
  calc unseen g.places [x] ≤ g.places.length := List.length_filter_le _ _
    _ = g.slots.size := by rw [places, List.length_map, List.length_range]

/-- What the walk comes to is populated, new to it, and a base of where it starts. -/
theorem Climbs.sound {visited ids : List EntityId} {current : Option EntityId}
    (h : g.Climbs visited current ids) (hc : c ∈ ids) :
    c ∉ visited ∧ (∃ e, g.entity? c = some e) ∧
      ∃ id, current = some id ∧ Relation.ReflTransGen g.Base id c := by
  induction h with
  | top => cases hc
  | again => cases hc
  | vacant => cases hc
  | @up visited id e ids hseen he _ ih =>
    rcases List.mem_cons.mp hc with rfl | hc
    · exact ⟨hseen, ⟨e, he⟩, c, rfl, .refl⟩
    · obtain ⟨hnew, hpopulated, base, hbase, hchain⟩ := ih hc
      refine ⟨fun h => hnew (List.mem_cons_of_mem id h), hpopulated, id, rfl, .head ?_ hchain⟩
      rw [Base, he]
      exact hbase

/-- A chain of bases stays at visited places, if it could only leave them for a vacant one. -/
theorem mem_of_chain {visited : List EntityId}
    (hclosed : ∀ v ∈ visited, ∀ b, g.Base v b → b ∈ visited ∨ g.entity? b = none) {v : EntityId}
    (hv : v ∈ visited) (hchain : Relation.ReflTransGen g.Base v c)
    (hc : ∃ e, g.entity? c = some e) : c ∈ visited := by
  have hmem : c ∈ visited ∨ g.entity? c = none := by
    induction hchain with
    | refl => exact .inl hv
    | @tail b c _ hbase ih =>
      -- what has a base is populated
      obtain ⟨e, he, -⟩ := Option.bind_eq_some_iff.mp hbase
      exact hclosed b ((ih ⟨e, he⟩).resolve_right fun h => nomatch he.symm.trans h) c hbase
  obtain ⟨e, he⟩ := hc
  exact hmem.resolve_right fun h => nomatch he.symm.trans h

/-- The walk misses nothing: a chain of bases that begins at a visited place goes on at visited
places, until it comes to where the walk is. -/
theorem Climbs.complete {visited ids : List EntityId} {current : Option EntityId}
    (h : g.Climbs visited current ids)
    (hvisited : ∀ v ∈ visited, ∀ b, g.Base v b → b ∈ visited ∨ current = some b) {v : EntityId}
    (hv : v ∈ visited) (hchain : Relation.ReflTransGen g.Base v c)
    (hc : ∃ e, g.entity? c = some e) : c ∈ visited ∨ c ∈ ids := by
  induction h with
  | top =>
    exact .inl (mem_of_chain (fun v hv b hb => (hvisited v hv b hb).imp_right nofun) hv hchain hc)
  | again hseen =>
    refine .inl (mem_of_chain (fun v hv b hb => .inl ?_) hv hchain hc)
    rcases hvisited v hv b hb with h | h
    · exact h
    · cases h
      exact hseen
  | vacant _ hvacant =>
    refine .inl (mem_of_chain (fun v hv b hb => ?_) hv hchain hc)
    refine (hvisited v hv b hb).imp_right fun h => ?_
    cases h
    exact hvacant
  | @up visited id e ids _ he _ ih =>
    have hnext : ∀ v ∈ id :: visited, ∀ b, g.Base v b → b ∈ id :: visited ∨ e.base? = some b := by
      intro v hv b hb
      rcases List.mem_cons.mp hv with rfl | hv
      · rw [Base, he] at hb
        exact .inr hb
      · rcases hvisited v hv b hb with h | h
        · exact .inl (List.mem_cons_of_mem id h)
        · cases h
          exact .inl List.mem_cons_self
    rcases ih hnext (List.mem_cons_of_mem id hv) with h | h
    · rcases List.mem_cons.mp h with rfl | h
      · exact .inr List.mem_cons_self
      · exact .inl h
    · exact .inr (List.mem_cons_of_mem id h)

/-- The bases of an interface are what is above it. -/
theorem mem_bases_iff : c ∈ g.bases x ↔ g.Above x c := by
  have hclimbs := climbs_bases g x
  constructor
  · intro hc
    obtain ⟨hnew, hpopulated, base, hbase, hchain⟩ := hclimbs.sound hc
    exact ⟨.head' hbase hchain, fun h => hnew (List.mem_singleton.mpr h), hpopulated⟩
  · rintro ⟨hchain, hne, hpopulated⟩
    refine (hclimbs.complete (v := x) ?_ (List.mem_singleton.mpr rfl) hchain.to_reflTransGen
      hpopulated).resolve_left fun h => hne (List.mem_singleton.mp h)
    intro v hv b hb
    obtain rfl := List.mem_singleton.mp hv
    exact .inr hb

/-- Above what is above an interface there is nothing new, except for the interface itself. -/
theorem Above.trans {b : EntityId} (h : g.Above x b) (h' : g.Above b c) (hne : c ≠ x) :
    g.Above x c :=
  ⟨h.chain.trans h'.chain, hne, h'.populated⟩

end InteropGraph.Graph
