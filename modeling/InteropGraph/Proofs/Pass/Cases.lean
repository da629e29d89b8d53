import InteropGraph.Pipeline
import InteropGraph.Proofs.Graph.Members

/-!
# The ways that a step of a pass goes

Most steps look at an entity first and do nothing if it is not of the kind that they are for. What
they do otherwise is said here once, with what they have found out. Passes are loops of such steps;
what every step keeps is kept in the end.
-/

namespace InteropGraph

/-- Each list is extended by the list of the same name. -/
theorem Members.list_append (m additions : Members) (k : MemberList) :
    (m.append additions).list k = m.list k ++ additions.list k := by
  cases k <;> rfl

/-- New entries may be added in two portions. -/
theorem appendNew_append (ids others more : List EntityId) :
    appendNew (appendNew ids others) more = appendNew ids (others ++ more) :=
  List.foldl_append.symm

/-- What is new comes last, each time in the place where it has come up first. -/
theorem appendNew_eq (ids others : List EntityId) :
    appendNew ids others = ids ++ (others.filter (· ∉ ids)).eraseDups := by
  induction others generalizing ids with
  | nil => exact (List.append_nil ids).symm
  | cons x others ih =>
    unfold appendNew at ih ⊢
    rw [List.foldl_cons, ih]
    by_cases hx : x ∈ ids
    · rw [if_pos hx, List.filter_cons_of_neg (by simpa using hx)]
    · rw [if_neg hx, List.filter_cons_of_pos (by simpa using hx), List.eraseDups_cons,
        List.append_assoc, List.singleton_append, List.filter_filter]
      refine congrArg (fun new => ids ++ x :: List.eraseDups new) (List.filter_congr fun y _ => ?_)
      simp [and_comm, beq_eq_decide]

/-- Nothing is listed but what has been and what is new. -/
theorem mem_appendNew {ids others : List EntityId} {id : EntityId} (h : id ∈ appendNew ids others) :
    id ∈ ids ∨ id ∈ others := by
  rw [appendNew_eq, List.mem_append, List.mem_eraseDups, List.mem_filter] at h
  exact h.imp_right And.left

/-- An entity, now known as an accessor. -/
def Entity.asAccessor (e : Entity) : Entity :=
  { e with flags := { e.flags with accessor := true } }

/-- Methods that are wrapped by a property are known as accessors from then on. -/
def Graph.markAccessors (g : Graph) (accessors : List EntityId) : Graph :=
  accessors.foldl (fun g m => g.modify m Entity.asAccessor) g

/-- What marking one accessor keeps is kept when all of them are marked. -/
theorem Graph.markAccessors_induction {motive : Graph → Prop} {g : Graph}
    {accessors : List EntityId} (h : motive g)
    (hstep : ∀ g', motive g' → ∀ i ∈ accessors, motive (g'.modify i Entity.asAccessor)) :
    motive (g.markAccessors accessors) :=
  List.foldlRecOn accessors _ h hstep

namespace Draft

variable (d : Draft)

/-! ### Steps -/

/-- An entity is renamed, or nothing happens. -/
theorem separateProtocol_cases (interfaces : List (String × String)) (id : EntityId) :
    d.separateProtocol interfaces id = d ∨
      ∃ e, d.graph.entity? id = some e ∧
        d.separateProtocol interfaces id = d.rename id (e.name ++ "Protocol") := by
  unfold separateProtocol
  cases d.graph.entity? id with
  | none => exact .inl rfl
  | some e =>
    dsimp only
    split
    · exact .inr ⟨e, rfl, rfl⟩
    · exact .inl rfl

/-- A category that extends a container adds its members there, in the order of the lists; anything
else does nothing. -/
theorem foldCategory_cases (id : EntityId) :
    d.foldCategory id = d ∨
      ∃ additions extended m, d.category? id = some (additions, extended) ∧
        d.graph.members? extended = some m ∧ d.foldCategory id = { d with
          graph := d.graph.mapMembers extended fun _ => d.graph.sortMembers (m.append additions)
          report := { d.report with mergedCategories := d.report.mergedCategories + 1 } } := by
  unfold foldCategory
  rcases hc : d.category? id with _ | ⟨additions, extended⟩
  · exact .inl rfl
  · dsimp only
    cases hm : d.graph.members? extended with
    | none => exact .inl rfl
    | some m => exact .inr ⟨additions, extended, m, rfl, hm, rfl⟩

/-- What has been found out about an ancestor that gets a property around `getter` and `setter`. -/
structure Wraps (template : Entity) (selectors : String × String) (ancestor : EntityId)
    (e : Entity) (m : Members) (getter setter : Option EntityId) : Prop where
  entity : d.graph.entity? ancestor = some e
  members : e.members? = some m
  unlisted : d.graph.hasProperty m.instanceProperties template.name = false
  getter_eq : d.graph.bareMethod? m.instanceMethods selectors.1 = getter
  setter_eq : d.graph.bareMethod? m.instanceMethods selectors.2 = setter
  nonempty : getter.toList ++ setter.toList ≠ []

/-- A property is only added around methods that the ancestor lists. None is added if the ancestor
has one of that name, or no such methods. -/
theorem addProperty_cases (template : Entity) (selectors : String × String) (ancestor : EntityId) :
    (d.addProperty template selectors ancestor = d ∧
      ∀ m, d.graph.members? ancestor = some m →
        d.graph.hasProperty m.instanceProperties template.name = true ∨
          d.graph.bareMethod? m.instanceMethods selectors.1 = none ∧
            d.graph.bareMethod? m.instanceMethods selectors.2 = none) ∨
      ∃ e m getter setter, d.Wraps template selectors ancestor e m getter setter ∧
        d.addProperty template selectors ancestor =
          d.wrapAccessors ancestor e.module template getter setter := by
  unfold addProperty Graph.members?
  cases he : d.graph.entity? ancestor with
  | none => exact .inl ⟨rfl, nofun⟩
  | some e =>
    dsimp only [Option.bind_some]
    cases hm : e.members? with
    | none => exact .inl ⟨rfl, nofun⟩
    | some m =>
      dsimp only
      by_cases hp : d.graph.hasProperty m.instanceProperties template.name
      · rw [if_pos hp]
        exact .inl ⟨rfl, fun m' hm' => .inl (Option.some.inj hm' ▸ hp)⟩
      · rw [if_neg hp]
        cases hgetter : d.graph.bareMethod? m.instanceMethods selectors.1 with
        | none =>
          cases hsetter : d.graph.bareMethod? m.instanceMethods selectors.2 with
          | none =>
            refine .inl ⟨rfl, fun m' hm' => .inr ?_⟩
            obtain rfl := Option.some.inj hm'
            exact ⟨hgetter, hsetter⟩
          | some setter =>
            exact .inr ⟨e, m, _, _,
              ⟨he, hm, Bool.eq_false_iff.mpr hp, hgetter, hsetter, nofun⟩, rfl⟩
        | some getter =>
          exact .inr ⟨e, m, _, _, ⟨he, hm, Bool.eq_false_iff.mpr hp, hgetter, rfl, nofun⟩, rfl⟩

/-! ### Dropped members -/

/-- What is left when some members of the container at `id` are dropped, if there is one. -/
inductive Drops (d : Draft) (id : EntityId) : Draft → Prop where
  | other : Drops d id d
  | members {m after : Members} (container : d.graph.members? id = some m)
      (lists : ∀ k, (after.list k).Sublist (m.list k)) (protocols : after.protocols = m.protocols) :
      Drops d id (d.replaceMembers id m after)

/-- A container loses its reserved methods at most. -/
theorem drops_dropReservedFrom (id : EntityId) : d.Drops id (d.dropReservedFrom id) := by
  unfold dropReservedFrom
  cases hm : d.graph.members? id with
  | none => exact .other
  | some m =>
    refine .members hm (fun k => ?_) rfl
    cases k with
    | instanceMethods | staticMethods => exact List.filter_sublist
    | instanceProperties | staticProperties => exact List.Sublist.refl _

/-- Members stay in order. -/
theorem sublist_keepNew (g : Graph) (inherited : List MemberKey) (seen : List (String × Bool))
    (ids : List EntityId) : (g.keepNew inherited seen ids).Sublist ids := by
  induction seen, ids using Graph.keepNew.induct g inherited with
  | case1 seen => exact .slnil
  | case2 seen i ids hname ih =>
    rw [Graph.keepNew, hname]
    exact ih.cons i
  | case3 seen i ids name hname hseen ih =>
    rw [Graph.keepNew, hname]
    dsimp only
    rw [if_pos hseen]
    exact ih.cons i
  | case4 seen i ids name hname hseen hkey ih =>
    rw [Graph.keepNew, hname]
    dsimp only
    rw [if_neg hseen, if_pos hkey]
    exact ih.cons i
  | case5 seen i ids name hname hseen hkey ih =>
    rw [Graph.keepNew, hname]
    dsimp only
    rw [if_neg hseen, if_neg hkey]
    exact ih.cons_cons i

/-- A container loses members that are redundant at most. -/
theorem drops_dropRedundantFrom (id : EntityId) : d.Drops id (d.dropRedundantFrom id) := by
  unfold dropRedundantFrom
  cases hm : d.graph.members? id with
  | none => exact .other
  | some m =>
    refine .members hm (fun k => ?_) rfl
    rw [Members.list_mapLists]
    exact sublist_keepNew d.graph _ [] (m.list k)

/-- An interface loses static methods at most. -/
theorem drops_dropShadowed (id : EntityId) : d.Drops id (d.dropShadowed id) := by
  unfold dropShadowed
  cases hm : d.graph.members? id with
  | none => exact .other
  | some m =>
    refine .members hm (fun k => ?_) rfl
    cases k with
    | staticMethods => exact List.filter_sublist
    | instanceMethods | instanceProperties | staticProperties => exact List.Sublist.refl _

/-! ### Loops -/

section Relations

variable {R : Draft → Draft → Prop} (hrefl : ∀ d, R d d)
  (htrans : ∀ {d₁ d₂ d₃}, R d₁ d₂ → R d₂ d₃ → R d₁ d₃)
include hrefl htrans

/-- Drafts that every turn of a loop relates are related from the beginning to the end, if the
relation is reflexive and transitive. -/
theorem rel_foldl {α : Type} {step : Draft → α → Draft} {l : List α}
    (hstep : ∀ d, ∀ x ∈ l, R d (step d x)) (d : Draft) : R d (l.foldl step d) :=
  List.foldlRecOn (motive := R d) l step (hrefl d) fun d' h x hx => htrans h (hstep d' x hx)

/-- The same of a pass, whose loop goes through what is listed. -/
theorem rel_forListed {step : Draft → EntityId → Draft} (hstep : ∀ d id, R d (step d id))
    (d : Draft) : R d (d.forListed step) :=
  rel_foldl hrefl htrans (fun d id _ => hstep d id) d

end Relations

/-- The entities before and after a listed one have their turns before and after it. -/
theorem forListed_split {d : Draft} {before after : List EntityId} {x : EntityId}
    (hlisted : d.listed = before ++ x :: after) (step : Draft → EntityId → Draft) :
    d.forListed step = after.foldl step (step (before.foldl step d) x) := by
  unfold forListed
  rw [hlisted, List.foldl_append, List.foldl_cons]

/-- What adding a property to one ancestor keeps is kept when an interface aligns all of its
ancestors with all of its properties. -/
theorem alignAncestors_induction {motive : Draft → Prop} {d : Draft} {id : EntityId} (h : motive d)
    (hstep : ∀ d', motive d' → ∀ template selectors, ∀ a ∈ d.graph.ancestors id,
      motive (d'.addProperty template selectors a)) : motive (d.alignAncestors id) := by
  unfold alignAncestors
  cases d.graph.members? id with
  | none => exact h
  | some m =>
    refine List.foldlRecOn m.instanceProperties _ h fun d' h' property _ => ?_
    unfold alignProperty
    split
    next selectors template _ _ =>
      exact List.foldlRecOn _ _ h' fun d'' h'' a ha => hstep d'' h'' template selectors a ha
    next => exact h'

/-! ### The renaming loop -/

/-- What is listed with a name is on the list of names, and nothing else is. -/
theorem mem_scopedEntities {d : Draft} {id : EntityId} {name : ScopedName} :
    (name, id) ∈ d.scopedEntities ↔ id ∈ d.listed ∧ scopedName? d.graph id = some name := by
  unfold scopedEntities
  rw [List.mem_filterMap]
  constructor
  · rintro ⟨i, hi, hname⟩
    obtain ⟨name', hname', heq⟩ := Option.map_eq_some_iff.mp hname
    cases heq
    exact ⟨hi, hname'⟩
  · rintro ⟨hid, hname⟩
    exact ⟨id, hid, by rw [hname]; rfl⟩

/-- The entities that are to be renamed, in their order. -/
def allLosers (d : Draft) : List (ScopedName × EntityId) :=
  (d.scopedEntities.map Prod.fst).eraseDups.flatMap (d.losers d.scopedEntities)

/-- Whoever gives up a name is one of those who have it. -/
theorem mem_losers {d : Draft} {entities : List (ScopedName × EntityId)} {name : ScopedName}
    {loser : ScopedName × EntityId} (h : loser ∈ d.losers entities name) : loser ∈ entities :=
  (List.mem_filter.mp (List.mem_mergeSort.mp (List.mem_of_mem_drop h))).1

/-- Only what is listed with a name is ever renamed. -/
theorem mem_allLosers {d : Draft} {loser : ScopedName × EntityId} (h : loser ∈ d.allLosers) :
    loser ∈ d.scopedEntities := by
  obtain ⟨name, -, hmem⟩ := List.mem_flatMap.mp h
  exact mem_losers hmem

/-- What one renaming keeps is kept by the loop; the names it has seen do not matter for that. -/
theorem renameLosers_induction {motive : Draft → Prop} {d : Draft} {taken : List ScopedName}
    {losers : List (ScopedName × EntityId)} (h : motive d)
    (hstep : ∀ d', motive d' → ∀ loser ∈ losers, ∀ name, motive (d'.rename loser.2 name)) :
    motive (losers.foldl renameLoser (d, taken)).1 := by
  refine List.foldlRecOn losers renameLoser (motive := fun state => motive state.1)
    (b := (d, taken)) h fun state h' loser hloser => ?_
  obtain ⟨d', taken'⟩ := state
  unfold renameLoser
  dsimp only
  cases d'.graph.entity? loser.2 with
  | none => exact h'
  | some e => exact hstep d' h' loser hloser _

/-- What renaming one listed entity keeps is kept when all losers are renamed. -/
theorem resolveClashes_induction {motive : Draft → Prop} {d : Draft} (h : motive d)
    (hstep : ∀ d', motive d' → ∀ id ∈ d.listed, ∀ name, motive (d'.rename id name)) :
    motive d.resolveClashes :=
  renameLosers_induction h fun d' h' loser hloser =>
    hstep d' h' loser.2 (mem_scopedEntities.mp (mem_allLosers hloser)).1

end Draft

end InteropGraph
