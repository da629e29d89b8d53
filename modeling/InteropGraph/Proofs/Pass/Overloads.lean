import InteropGraph.Proofs.Graph.Modules
import InteropGraph.Proofs.Pass.Rearranged

/-!
# Overloads

Instance methods of an interface that share bridge name and number of parameters are reported, as a
group (`Graph.IsOverload`), when the interface is aligned. Later steps do not change what the
members of a group have in common, but the interfaces that are aligned later take methods away from
their ancestors (`Graph.Thins`).
-/

namespace InteropGraph

namespace Graph

variable {g g' : Graph} {L : List EntityId} {T : Set EntityId}

/-- The selector of the method at `i`, if it has the given name and number of parameters. -/
def selectorOf? (g : Graph) (name : String) (arity : Nat) (i : EntityId) : Option String :=
  match g.entity? i with
  | some e => if e.bridgeName = name ∧ e.arity = arity then some e.name else none
  | none => none

/-- `o` is a group of two or more of the methods that share name and number of parameters: all of
them, with their selectors in order. -/
structure IsOverload (g : Graph) (container : String) (methods : List EntityId) (o : Overload) :
    Prop where
  container : o.container = container
  selectors : o.selectors = methods.filterMap (g.selectorOf? o.bridgeName o.arity)
  several : 2 ≤ o.selectors.length

end Graph

namespace Draft

variable {g : Graph} {container : String} {methods : List EntityId}

/-! ### What is reported -/

/-- The selectors of one form are those of the methods that have it, in the order of the methods. -/
theorem selectors_methodForms (g : Graph) (methods : List EntityId) (form : String × Nat) :
    ((methodForms g methods).filter (·.1 = form)).map Prod.snd =
      methods.filterMap (g.selectorOf? form.1 form.2) := by
  unfold methodForms
  induction methods with
  | nil => rfl
  | cons i methods ih =>
    rw [List.filterMap_cons, List.filterMap_cons]
    unfold Graph.selectorOf?
    cases g.entity? i with
    | none => exact ih
    | some e =>
      dsimp only [Option.map_some]
      rw [List.filter_cons]
      by_cases hform : (e.bridgeName, e.arity) = form
      · rw [if_pos (decide_eq_true hform), if_pos (Prod.mk.inj hform), List.map_cons, ih]
        rfl
      · rw [if_neg (by rwa [decide_eq_true_iff]), if_neg fun h => hform (Prod.ext h.1 h.2), ih]
        rfl

/-- The overloads of a container are the groups of its methods. -/
theorem mem_overloads_iff {o : Overload} :
    o ∈ overloads g container methods ↔ g.IsOverload container methods o := by
  unfold overloads
  rw [List.mem_filterMap]
  constructor
  · rintro ⟨form, -, hform⟩
    rw [selectors_methodForms] at hform
    dsimp only at hform
    split at hform
    next hseveral =>
      cases hform
      exact ⟨rfl, rfl, hseveral⟩
    next => cases hform
  · rintro ⟨rfl, hselectors, hseveral⟩
    have hgroup := selectors_methodForms g methods (o.bridgeName, o.arity)
    rw [← hselectors] at hgroup
    refine ⟨(o.bridgeName, o.arity), ?_, ?_⟩
    · -- the group is not empty, so its form is among those of the methods
      rw [List.mem_mergeSort, List.mem_eraseDups]
      have hne : (methodForms g methods).filter (·.1 = (o.bridgeName, o.arity)) ≠ [] := by
        intro hnil
        rw [hnil] at hgroup
        rw [← hgroup] at hseveral
        cases hseveral
      obtain ⟨p, hp⟩ := List.exists_mem_of_ne_nil _ hne
      obtain ⟨hp, hform⟩ := List.mem_filter.mp hp
      exact List.mem_map.mpr ⟨p, hp, of_decide_eq_true hform⟩
    · dsimp only
      rw [hgroup, if_pos hseveral]

/-- Each group comes up once. -/
theorem nodup_overloads (g : Graph) (container : String) (methods : List EntityId) :
    (overloads g container methods).Nodup := by
  unfold overloads
  refine List.Nodup.filterMap (fun form form' o ho ho' => ?_) ?_
  · dsimp only at ho ho'
    split at ho <;> cases ho
    split at ho'
    next =>
      simp only [Option.mem_def, Option.some.injEq, Overload.mk.injEq] at ho'
      exact Prod.ext ho'.2.1.symm ho'.2.2.1.symm
    next => cases ho'
  · exact (List.mergeSort_perm _ _).nodup_iff.mpr (List.nodup_eraseDups _)

end Draft

/-! ### What later steps change -/

namespace Graph

variable {g g' : Graph} {T : Set EntityId}

/-- The graph `g'` comes from `g` by steps that take instance methods from no containers but those
in `T`. It stays as it was which entities are interfaces, and what their ancestors are. -/
structure Thins (T : Set EntityId) (g g' : Graph) : Prop where
  methods : ∀ {x m}, g.members? x = some m → ∃ m', g'.members? x = some m' ∧
    m'.instanceMethods.Sublist m.instanceMethods ∧
      (x ∉ T → m'.instanceMethods = m.instanceMethods)
  interface : ∀ x, g'.kind? x = some .interface ↔ g.kind? x = some .interface
  ancestors : ∀ x, g'.ancestors x = g.ancestors x

namespace Thins

theorem refl (T : Set EntityId) (g : Graph) : g.Thins T g where
  methods hm := ⟨_, hm, List.Sublist.refl _, fun _ => rfl⟩
  interface _ := Iff.rfl
  ancestors _ := rfl

theorem trans {g₁ g₂ g₃ : Graph} (h : g₁.Thins T g₂) (h' : g₂.Thins T g₃) : g₁.Thins T g₃ where
  methods hm := by
    obtain ⟨m₂, hm₂, hsublist, hsame⟩ := h.methods hm
    obtain ⟨m₃, hm₃, hsublist', hsame'⟩ := h'.methods hm₂
    exact ⟨m₃, hm₃, hsublist'.trans hsublist, fun hx => (hsame' hx).trans (hsame hx)⟩
  interface x := (h'.interface x).trans (h.interface x)
  ancestors x := (h'.ancestors x).trans (h.ancestors x)

/-- Members, origin and ancestors have nothing to do with what is changed. -/
theorem modify {id : EntityId} {f : Entity → Entity} (horigin : ∀ e : Entity, e.SameOrigin (f e))
    (hmembers : ∀ e : Entity, (f e).members? = e.members?) : g.Thins T (g.modify id f) where
  methods {x m} hm := by
    refine ⟨m, ?_, List.Sublist.refl _, fun _ => rfl⟩
    rw [members?, g.bind_entity?_modify id hmembers]
    exact hm
  interface x := by
    unfold kind?
    rw [Option.map_eq_bind, Option.map_eq_bind, g.bind_entity?_modify id fun e => ?_]
    exact congrArg some (horigin e).kind
  ancestors x := by
    unfold Graph.ancestors members?
    rw [g.bind_entity?_modify id hmembers, g.bind_entity?_modify id fun e => (horigin e).base?]

/-- A container in the set may lose instance methods; one that is not has to keep them. -/
theorem mapMembers {id : EntityId} {f : Members → Members}
    (hprotocols : ∀ m, g.members? id = some m → (f m).protocols = m.protocols)
    (hsublist : ∀ m, g.members? id = some m →
      (f m).instanceMethods.Sublist m.instanceMethods)
    (hsame : id ∉ T → ∀ m, g.members? id = some m →
      (f m).instanceMethods = m.instanceMethods) :
    g.Thins T (g.mapMembers id f) where
  methods {x m} hm := by
    rw [members?_mapMembers]
    by_cases hx : x = id
    · subst hx
      rw [if_pos rfl, hm]
      exact ⟨f m, rfl, hsublist m hm, fun hT => hsame hT m hm⟩
    · rw [if_neg hx]
      exact ⟨m, hm, List.Sublist.refl _, fun _ => rfl⟩
  interface x := by
    unfold kind? Graph.mapMembers
    rw [Option.map_eq_bind, Option.map_eq_bind, g.bind_entity?_modify id fun e => ?_]
    exact congrArg some (Entity.SameOrigin.mapMembers e f).kind
  ancestors x := by
    unfold Graph.ancestors
    have hbase : ((g.mapMembers id f).entity? x).bind Entity.base? =
        (g.entity? x).bind Entity.base? :=
      g.bind_entity?_modify id (fun e => (Entity.SameOrigin.mapMembers e f).base?) x
    rw [hbase, members?_mapMembers]
    by_cases hx : x = id
    · subst hx
      rw [if_pos rfl]
      cases hm : g.members? x with
      | none => rfl
      | some m => exact congrArg _ (hprotocols m hm)
    · rw [if_neg hx]

/-- A new property is no interface and has no ancestors. -/
theorem insert {e : Entity} {getter setter : Option EntityId}
    (he : e.detail = .property getter setter) : g.Thins T (g.insert e).2 where
  methods {x m} hm := by
    have hmembers : e.members? = none := by
      unfold Entity.members?
      rw [he]
    refine ⟨m, ?_, List.Sublist.refl _, fun _ => rfl⟩
    rw [members?, g.bind_entity?_insert hmembers]
    exact hm
  interface x := by
    unfold kind?
    rw [entity?_insert]
    by_cases hx : x = (g.insert e).1
    · have hkind : e.kind = .property := congrArg Detail.kind he
      rw [if_pos hx, hx, g.entity?_insert_fst e, Option.map_some, Option.map_none, hkind]
      exact iff_of_false (by decide) (by decide)
    · rw [if_neg hx]
  ancestors x := by
    have hmembers : e.members? = none := by
      unfold Entity.members?
      rw [he]
    have hbase : e.base? = none := by
      unfold Entity.base?
      rw [he]
    unfold Graph.ancestors members?
    rw [g.bind_entity?_insert hmembers, g.bind_entity?_insert hbase]

end Thins

end Graph

namespace Draft

variable {d : Draft} {T : Set EntityId}

/-- Where a property is added, the methods that it wraps are taken off. -/
theorem thins_wrapAccessors (d : Draft) {ancestor : EntityId} (hancestor : ancestor ∈ T)
    (module : String) (template : Entity) (getter setter : Option EntityId) :
    d.graph.Thins T (d.wrapAccessors ancestor module template getter setter).graph := by
  let accessors := getter.toList ++ setter.toList
  have hmarked : d.graph.Thins T (d.graph.markAccessors accessors) :=
    Graph.markAccessors_induction (.refl T d.graph)
      fun _ h _ _ => h.trans (.modify .asAccessor fun _ => rfl)
  refine (hmarked.trans (.insert rfl)).trans (.mapMembers ?_ ?_ ?_)
  · exact fun _ _ => rfl
  · exact fun _ _ => List.filter_sublist
  · exact fun h => absurd hancestor h

/-- An interface takes methods from its ancestors only. -/
theorem thins_alignAncestors (d : Draft) {id : EntityId}
    (hT : ∀ a ∈ d.graph.ancestors id, a ∈ T) :
    d.graph.Thins T (d.alignAncestors id).graph := by
  refine alignAncestors_induction (motive := fun d' => d.graph.Thins T d'.graph) (.refl T d.graph)
    fun d' hd' template selectors a ha => ?_
  obtain ⟨h, -⟩ | ⟨_, _, _, _, -, h⟩ := d'.addProperty_cases template selectors a <;> rw [h]
  · exact hd'
  · exact hd'.trans (thins_wrapAccessors d' (hT a ha) _ template _ _)

/-- The methods of a class that go are static. -/
theorem thins_dropShadowed (d : Draft) (id : EntityId) :
    d.graph.Thins T (d.dropShadowed id).graph := by
  unfold dropShadowed
  cases hm : d.graph.members? id with
  | none => exact .refl T d.graph
  | some m =>
    refine .mapMembers (fun m' hm' => ?_) (fun m' hm' => ?_) fun _ m' hm' => ?_
    all_goals obtain rfl : m = m' := Option.some.inj (hm.symm.trans hm')
    · rfl
    · exact List.Sublist.refl _
    · rfl

/-- An interface that has its turn takes instance methods from its ancestors only. -/
theorem thins_alignInterface (d : Draft) {id : EntityId}
    (hT : d.graph.kind? id = some .interface → ∀ a ∈ d.graph.ancestors id, a ∈ T) :
    d.graph.Thins T (d.alignInterface id).graph := by
  unfold alignInterface
  by_cases hkind : d.graph.kind? id = some .interface
  · rw [if_pos hkind, graph_reportOverloads]
    exact (thins_alignAncestors d (hT hkind)).trans (thins_dropShadowed _ id)
  · rw [if_neg hkind]
    exact .refl T d.graph

/-- A row of interfaces takes methods from no others than their ancestors. -/
theorem thins_foldl_alignInterface (d : Draft) {ids : List EntityId}
    (hT : ∀ y ∈ ids, d.graph.kind? y = some .interface → ∀ a ∈ d.graph.ancestors y, a ∈ T) :
    d.graph.Thins T (ids.foldl alignInterface d).graph := by
  refine List.foldlRecOn (motive := fun d' => d.graph.Thins T d'.graph) ids alignInterface
    (.refl T d.graph) fun d' h y hy => ?_
  refine h.trans (thins_alignInterface d' fun hkind a ha => ?_)
  rw [h.ancestors] at ha
  exact hT y hy ((h.interface y).mp hkind) a ha

/-- Names take no methods off lists. -/
theorem thins_resolveClashes (d : Draft) : d.graph.Thins T d.resolveClashes.graph :=
  resolveClashes_induction (motive := fun d' => d.graph.Thins T d'.graph) (.refl T d.graph)
    fun _ h _ _ _ => h.trans (.modify (fun _ => ⟨rfl, rfl, rfl, rfl, rfl⟩) fun _ => rfl)

end Draft

end InteropGraph
