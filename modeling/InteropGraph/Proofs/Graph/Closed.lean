import InteropGraph.Proofs.Graph.Reach
import Mathlib.Data.Set.Insert

/-!
# Closed graphs and closed dumps

A dump is closed if everything that it mentions is in it, and no declaration is in it twice. It is,
if the listed entities lie in a set of nodes with the same property within the graph
(`Graph.Closed`). Such a set is easier to follow through changes of the graph than what can be
reached: it stays where it is when members are moved or removed.
-/

namespace InteropGraph

/-- A container refers to its members. -/
theorem Entity.references_of_members? {e : Entity} {m : Members} (h : e.members? = some m) :
    m.references ⊆ e.detail.references := by
  intro n hn
  unfold members? at h
  unfold Detail.references
  split at h <;> cases h
  next hdetail =>
    rw [hdetail]
    exact List.mem_append_left _ hn
  next hdetail =>
    rw [hdetail]
    exact hn
  next hdetail =>
    rw [hdetail]
    exact List.mem_append_left _ hn

namespace Graph

namespace Dump

/-- A node is in a dump. -/
def Has (d : Dump) : Node → Prop
  | .entity id => ∃ e, (id, e) ∈ d.entities
  | .type t => ∃ type, (t, type) ∈ d.types

/-- Everything that a dump mentions is in it, and no two entities are made from one declaration. -/
structure IsClosed (d : Dump) : Prop where
  /-- What the modules list. -/
  listed : ∀ module ids, (module, ids) ∈ d.modules → ∀ id ∈ ids, d.Has (.entity id)
  /-- The types in fields, variables and signatures; members, protocols, base, extended interface
  and accessors. -/
  entities : ∀ id e, (id, e) ∈ d.entities → ∀ n ∈ e.detail.references, d.Has n
  /-- The entities and types that a type names. -/
  types : ∀ t type, (t, type) ∈ d.types → ∀ n ∈ type.references, d.Has n
  distinct : ∀ i e j e' source, (i, e) ∈ d.entities → (j, e') ∈ d.entities →
    e.source = some source → e'.source = some source → i = j

end Dump

/-- The nodes in `L` exist and refer only to nodes in `L`, and no two entities in `L` are made from
one declaration. -/
structure Closed (g : Graph) (L : Set Node) : Prop where
  references : ∀ n ∈ L, ∃ next, g.references? n = some next ∧ ∀ m ∈ next, m ∈ L
  distinct : ∀ {i e j e' source}, .entity i ∈ L → .entity j ∈ L → g.entity? i = some e →
    g.entity? j = some e' → e.source = some source → e'.source = some source → i = j

variable {g : Graph} {L : Set Node} {id : EntityId} {modules : Modules}

namespace Closed

theorem of_entity (h : g.Closed L) {e : Entity} (hid : .entity id ∈ L)
    (he : g.entity? id = some e) : ∀ n ∈ e.detail.references, n ∈ L := by
  obtain ⟨next, hnext, hmem⟩ := h.references _ hid
  obtain ⟨e', he', rfl⟩ := Option.map_eq_some_iff.mp hnext
  obtain rfl : e = e' := Option.some.inj (he.symm.trans he')
  exact hmem

theorem exists_entity (h : g.Closed L) (hid : .entity id ∈ L) :
    ∃ e, g.entity? id = some e := by
  obtain ⟨_, hfound, -⟩ := h.references _ hid
  obtain ⟨e, he, -⟩ := Option.map_eq_some_iff.mp hfound
  exact ⟨e, he⟩

theorem of_reaches (h : g.Closed L) {roots : List EntityId} (hroots : ∀ id ∈ roots, .entity id ∈ L)
    {n : Node} (hn : g.Reaches roots n) : n ∈ L := by
  induction hn with
  | root listed _ => exact hroots _ listed
  | step _ references mem _ ih =>
    obtain ⟨next, hnext, hmem⟩ := h.references _ ih
    obtain rfl := Option.some.inj (hnext.symm.trans references)
    exact hmem _ mem

/-- What can be reached is in the dump. -/
theorem has_of_reaches {n : Node} (hn : g.Reaches modules.ids n) : (g.dump modules).Has n := by
  obtain ⟨next, hnext⟩ := hn.exists
  cases n with
  | entity id =>
    obtain ⟨e, he, -⟩ := Option.map_eq_some_iff.mp hnext
    exact ⟨e, mem_dump_entities.mpr ⟨he, hn⟩⟩
  | type t =>
    obtain ⟨type, htype, -⟩ := Option.map_eq_some_iff.mp hnext
    exact ⟨type, mem_dump_types.mpr ⟨htype, hn⟩⟩

/-- A dump is closed if the listed entities lie in a closed set. -/
theorem dump_isClosed (h : g.Closed L) (hlisted : ∀ id ∈ modules.ids, .entity id ∈ L) :
    (g.dump modules).IsClosed := by
  -- a reference from a reachable node stays in `L`, so it leads somewhere and is followed
  have hstep {n m : Node} {next : List Node} (hn : g.Reaches modules.ids n)
      (hnext : g.references? n = some next) (hm : m ∈ next) : (g.dump modules).Has m := by
    obtain ⟨next', hnext', hmem⟩ := h.references n (h.of_reaches hlisted hn)
    obtain rfl := Option.some.inj (hnext'.symm.trans hnext)
    obtain ⟨_, hfound, -⟩ := h.references m (hmem m hm)
    exact has_of_reaches (.step hn hnext hm hfound)
  refine ⟨?_, ?_, ?_, ?_⟩
  · intro module ids hmodule id hid
    have hroot : id ∈ modules.ids := List.mem_flatMap.mpr ⟨(module, ids), hmodule, hid⟩
    obtain ⟨_, hfound, -⟩ := h.references _ (hlisted id hroot)
    exact has_of_reaches (.root hroot hfound)
  · intro id e he n hn
    obtain ⟨hentity, hreach⟩ := mem_dump_entities.mp he
    exact hstep hreach (references?_entity hentity) hn
  · intro t type htype n hn
    obtain ⟨hfound, hreach⟩ := mem_dump_types.mp htype
    exact hstep hreach (references?_type hfound) hn
  · intro i e j e' source hi hj hs hs'
    obtain ⟨hi, hreachi⟩ := mem_dump_entities.mp hi
    obtain ⟨hj, hreachj⟩ := mem_dump_entities.mp hj
    exact h.distinct (h.of_reaches hlisted hreachi) (h.of_reaches hlisted hreachj) hi hj hs hs'

/-! ### Changes of the graph -/

theorem modify (h : g.Closed L) {f : Entity → Entity} (hf : ∀ e, g.entity? id = some e →
      (f e).source = e.source ∧ ∀ n ∈ (f e).detail.references, n ∈ L) :
    (g.modify id f).Closed L := by
  have hold {j : EntityId} {e : Entity} (he : (g.modify id f).entity? j = some e) :
      ∃ e', g.entity? j = some e' ∧ e.source = e'.source := by
    rw [entity?_modify] at he
    by_cases hj : j = id
    · rw [if_pos hj] at he
      obtain ⟨e', he', rfl⟩ := Option.map_eq_some_iff.mp he
      exact ⟨e', hj ▸ he', (hf e' he').1⟩
    · rw [if_neg hj] at he
      exact ⟨e, he, rfl⟩
  refine ⟨fun n hn => ?_, fun {i e j e' source} hi hj he he' hs hs' => ?_⟩
  · obtain ⟨next, hnext, hmem⟩ := h.references n hn
    cases n with
    | type t => exact ⟨next, hnext, hmem⟩
    | entity j =>
      obtain ⟨e, he, rfl⟩ := Option.map_eq_some_iff.mp hnext
      by_cases hj : j = id
      · subst hj
        refine ⟨(f e).detail.references, references?_entity ?_, (hf e he).2⟩
        rw [entity?_modify, if_pos rfl, he, Option.map_some]
      · refine ⟨e.detail.references, ?_, hmem⟩
        rw [references?, entity?_modify, if_neg hj, he]
        rfl
  · obtain ⟨e₀, he₀, hsource⟩ := hold he
    obtain ⟨e₀', he₀', hsource'⟩ := hold he'
    exact h.distinct hi hj he₀ he₀' (hsource ▸ hs) (hsource' ▸ hs')

/-- A change that leaves the references of an entity alone. -/
theorem modify_of_detail (h : g.Closed L) (hid : .entity id ∈ L) {f : Entity → Entity}
    (hf : ∀ e, (f e).source = e.source ∧ (f e).detail = e.detail) : (g.modify id f).Closed L := by
  refine h.modify fun e he => ⟨(hf e).1, ?_⟩
  rw [(hf e).2]
  exact h.of_entity hid he

/-- An entity without a declaration joins the set. -/
theorem insertEntity (h : g.Closed L) {e : Entity} (hsource : e.source = none)
    (he : ∀ n ∈ e.detail.references, n ∈ L) :
    (g.insert e).2.Closed (L ∪ {.entity (g.insert e).1}) := by
  have hentity (j : EntityId) := entity?_insert g e j
  refine ⟨fun n hn => ?_, fun {i e₁ j e₂ source} hi hj he₁ he₂ hs₁ hs₂ => ?_⟩
  · by_cases hnew : n = .entity (g.insert e).1
    · subst hnew
      refine ⟨e.detail.references, references?_entity ?_, fun m hm => .inl (he m hm)⟩
      rw [hentity, if_pos rfl]
    · obtain ⟨next, hnext, hmem⟩ := h.references n (hn.resolve_right hnew)
      refine ⟨next, ?_, fun m hm => .inl (hmem m hm)⟩
      cases n with
      | type t => exact hnext
      | entity j =>
        rw [references?, hentity, if_neg fun hj => hnew (congrArg Node.entity hj)]
        exact hnext
  · -- the new entity has no source, so both are old
    have hold {k : EntityId} {e' : Entity}
        (hk : .entity k ∈ L ∪ {.entity (g.insert e).1})
        (hk' : (g.insert e).2.entity? k = some e') (hs : e'.source = some source) :
        .entity k ∈ L ∧ g.entity? k = some e' := by
      rw [hentity] at hk'
      by_cases hnew : k = (g.insert e).1
      · rw [if_pos hnew] at hk'
        cases hk'
        cases hsource.symm.trans hs
      · rw [if_neg hnew] at hk'
        exact ⟨hk.resolve_right fun hc => hnew (Node.entity.inj hc), hk'⟩
    obtain ⟨hi, he₁⟩ := hold hi he₁ hs₁
    obtain ⟨hj, he₂⟩ := hold hj he₂ hs₂
    exact h.distinct hi hj he₁ he₂ hs₁ hs₂

theorem of_members (h : g.Closed L) (hid : .entity id ∈ L) {m : Members}
    (hm : g.members? id = some m) : ∀ n ∈ m.references, n ∈ L := by
  obtain ⟨e, he, hmembers⟩ := members?_eq_some_iff.mp hm
  exact fun n hn => h.of_entity hid he n (Entity.references_of_members? hmembers hn)

/-- Members may be changed as long as the new ones are in `L`. -/
theorem mapMembers (h : g.Closed L) (hid : .entity id ∈ L) {f : Members → Members}
    (hf : ∀ m, g.members? id = some m → ∀ n ∈ (f m).references, n ∈ L) :
    (g.mapMembers id f).Closed L := by
  refine h.modify fun e he => ⟨rfl, ?_⟩
  -- only containers have members; the references besides those are kept
  have hrest := h.of_entity hid he
  have hmembers {m : Members} (hm : e.members? = some m) : ∀ n ∈ (f m).references, n ∈ L :=
    hf m (by rw [members?, he]; exact hm)
  unfold Entity.mapMembers
  unfold Entity.members? at hmembers
  cases hdetail : e.detail with
  | interface m base params =>
    rw [hdetail] at hmembers hrest
    intro n hn
    rcases List.mem_append.mp hn with hn | hn
    · exact hmembers rfl n hn
    · exact hrest n (List.mem_append_right _ hn)
  | protocol m =>
    rw [hdetail] at hmembers
    exact hmembers rfl
  | category m extended =>
    rw [hdetail] at hmembers hrest
    intro n hn
    rcases List.mem_append.mp hn with hn | hn
    · exact hmembers rfl n hn
    · exact hrest n (List.mem_append_right _ hn)
  | struct | function | enumeration | «variable» | method | property | enumConstant =>
    rw [hdetail] at hrest
    exact hrest

end Closed

end Graph

end InteropGraph
