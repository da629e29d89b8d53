import InteropGraph.Proofs.Graph.Bases
import InteropGraph.Proofs.Pass.Retains

/-!
# Redundant members

A container keeps the first member of each name in a list, unless that member is inherited, that is,
something in the chain of bases lists a member with its key (`Graph.Inherits`). In this case the
other members of the name are dropped with it, whatever their types. Containers are cleaned one
after the other; a base that is cleaned later may lose the very member that it hands down, if it
lists that behind another one of the same name (`inherited_lost_loadBehindLoad`). Apart from this,
what a container has dropped as inherited is inherited in the end.
-/

namespace InteropGraph

/-- A change of members is no change of the base. -/
theorem Entity.base?_mapMembers (e : Entity) (f : Members → Members) :
    (e.mapMembers f).base? = e.base? :=
  (Entity.SameOrigin.mapMembers e f).base?

namespace Graph

variable {g g' : Graph} {x c i : EntityId} {key : MemberKey} {name : String × Bool}

/-! ### Inherited keys -/

/-- The container at `c` lists a member with the key. -/
def ListsKey (g : Graph) (c : EntityId) (key : MemberKey) : Prop :=
  ∃ m, g.members? c = some m ∧ ∃ k, ∃ i ∈ m.list k, g.memberKey? i = some key

/-- Something in the chain of bases of `x` lists a member with the key. -/
def Inherits (g : Graph) (x : EntityId) (key : MemberKey) : Prop :=
  ∃ c, g.Above x c ∧ g.ListsKey c key

/-- In some list, the container at `c` has a member with the key behind another one that has the
same name, and is static or not as well, but not the same key. -/
def ListsBehind (g : Graph) (c : EntityId) (key : MemberKey) : Prop :=
  ∃ m k j i, g.members? c = some m ∧ [j, i].Sublist (m.list k) ∧ g.memberKey? i = some key ∧
    g.nameAndStatic? j = g.nameAndStatic? i ∧ g.memberKey? j ≠ some key

/-- The first member of a list that has the given name. -/
def first? (g : Graph) (name : String × Bool) (ids : List EntityId) : Option EntityId :=
  ids.find? fun i => g.nameAndStatic? i = some name

/-- The keys that are collected along the chain are the inherited ones. -/
theorem mem_inheritedKeys_iff : key ∈ g.inheritedKeys x ↔ g.Inherits x key := by
  unfold inheritedKeys
  rw [List.mem_flatMap]
  constructor
  · rintro ⟨c, hc, hkey⟩
    obtain ⟨i, hi, hkey⟩ := List.mem_filterMap.mp hkey
    cases hm : g.members? c with
    | none =>
      rw [hm] at hi
      cases hi
    | some m =>
      rw [hm] at hi
      obtain ⟨k, hk⟩ := Members.mem_all_iff.mp hi
      exact ⟨c, mem_bases_iff.mp hc, m, hm, k, i, hk, hkey⟩
  · rintro ⟨c, hc, m, hm, k, i, hi, hkey⟩
    refine ⟨c, mem_bases_iff.mpr hc, List.mem_filterMap.mpr ⟨i, ?_, hkey⟩⟩
    rw [hm]
    exact Members.mem_all_iff.mpr ⟨k, hi⟩

/-- The key of a member has its name. -/
theorem exists_memberKey? (h : g.nameAndStatic? i = some name) :
    ∃ key, g.memberKey? i = some key ∧ (key.name, key.static) = name := by
  obtain ⟨e, he, hname⟩ := Option.map_eq_some_iff.mp h
  exact ⟨_, by rw [memberKey?, he]; rfl, hname⟩

theorem nameAndStatic?_of_memberKey? (h : g.memberKey? i = some key) :
    g.nameAndStatic? i = some (key.name, key.static) := by
  obtain ⟨e, he, rfl⟩ := Option.map_eq_some_iff.mp h
  rw [nameAndStatic?, he]
  rfl

/-! ### What stays in a list -/

theorem first?_cons_of_eq {ids : List EntityId} (h : g.nameAndStatic? i = some name) :
    g.first? name (i :: ids) = some i :=
  List.find?_cons_of_pos (decide_eq_true h)

theorem first?_cons_of_ne {ids : List EntityId} (h : g.nameAndStatic? i ≠ some name) :
    g.first? name (i :: ids) = g.first? name ids :=
  List.find?_cons_of_neg (by rwa [decide_eq_true_iff])

/-- A member stays if it is the first of its name, and not inherited. -/
theorem mem_keepNew_iff {inherited : List MemberKey} {seen : List (String × Bool)}
    {ids : List EntityId} (hi : g.nameAndStatic? i = some name) :
    i ∈ g.keepNew inherited seen ids ↔ g.first? name ids = some i ∧ name ∉ seen ∧
      ¬(g.memberKey? i).any (· ∈ inherited) := by
  induction seen, ids using keepNew.induct g inherited with
  | case1 =>
    refine iff_of_false List.not_mem_nil ?_
    rintro ⟨hfirst, -⟩
    cases hfirst
  | case2 seen j ids hname ih =>
    have hne : g.nameAndStatic? j ≠ some name := hname ▸ (Option.some_ne_none name).symm
    rw [keepNew, hname, first?_cons_of_ne hne]
    exact ih
  | case3 seen j ids other hname hseen ih =>
    rw [keepNew, hname]
    dsimp only
    rw [if_pos hseen, ih]
    by_cases hj : other = name
    · subst hj
      exact iff_of_false (fun h => h.2.1 hseen) (fun h => h.2.1 hseen)
    · rw [first?_cons_of_ne (hname ▸ fun h => hj (Option.some.inj h))]
  | case4 seen j ids other hname hseen hkey ih =>
    rw [keepNew, hname]
    dsimp only
    rw [if_neg hseen, if_pos hkey, ih]
    by_cases hj : other = name
    · subst hj
      rw [first?_cons_of_eq hname]
      refine iff_of_false (fun h => h.2.1 List.mem_cons_self) fun h => h.2.2 ?_
      rwa [← Option.some.inj h.1]
    · rw [first?_cons_of_ne (hname ▸ fun h => hj (Option.some.inj h)), List.mem_cons, not_or]
      exact and_congr_right' (and_congr_left' (and_iff_right (Ne.symm hj)))
  | case5 seen j ids other hname hseen hkey ih =>
    rw [keepNew, hname]
    dsimp only
    rw [if_neg hseen, if_neg hkey, List.mem_cons, ih]
    by_cases hj : other = name
    · subst hj
      rw [first?_cons_of_eq hname]
      constructor
      · rintro (rfl | h)
        · exact ⟨rfl, hseen, hkey⟩
        · exact absurd List.mem_cons_self h.2.1
      · exact fun h => .inl (Option.some.inj h.1).symm
    · rw [first?_cons_of_ne (hname ▸ fun h => hj (Option.some.inj h)), List.mem_cons, not_or]
      rw [or_iff_right]
      · exact and_congr_right' (and_congr_left' (and_iff_right (Ne.symm hj)))
      · rintro rfl
        exact hj (Option.some.inj (hname.symm.trans hi))

/-- Of the members of a name, one before another, the first is the first of the list or is behind
that. -/
theorem first?_cases {ids : List EntityId} (hi : i ∈ ids) (hname : g.nameAndStatic? i = some name) :
    ∃ j, g.first? name ids = some j ∧ g.nameAndStatic? j = some name ∧
      (j = i ∨ [j, i].Sublist ids) := by
  cases hfirst : g.first? name ids with
  | none => exact absurd (decide_eq_true hname) (List.find?_eq_none.mp hfirst i hi)
  | some j =>
    obtain ⟨hj, before, after, rfl, hbefore⟩ := List.find?_eq_some_iff_append.mp hfirst
    refine ⟨j, rfl, of_decide_eq_true hj, ?_⟩
    rcases List.mem_append.mp hi with hi | hi
    · exact absurd (hbefore i hi) (by simp [hname])
    · rcases List.mem_cons.mp hi with rfl | hi
      · exact .inl rfl
      · refine .inr (.trans ?_ (List.sublist_append_right before _))
        exact (List.singleton_sublist.mpr hi).cons_cons j

/-! ### What the pass leaves alone -/

/-- The graph `g'` is `g`, with some members gone from the lists of containers. -/
structure Loses (g g' : Graph) : Prop where
  above : ∀ {x c}, g'.Above x c ↔ g.Above x c
  name : ∀ i, g'.nameAndStatic? i = g.nameAndStatic? i
  key : ∀ i, g'.memberKey? i = g.memberKey? i
  members : ∀ {x m'}, g'.members? x = some m' → ∃ m, g.members? x = some m ∧
    ∀ k, (m'.list k).Sublist (m.list k)

namespace Loses

theorem refl (g : Graph) : g.Loses g :=
  ⟨Iff.rfl, fun _ => rfl, fun _ => rfl, fun hm => ⟨_, hm, fun _ => List.Sublist.refl _⟩⟩

theorem trans {g₁ g₂ g₃ : Graph} (h : g₁.Loses g₂) (h' : g₂.Loses g₃) : g₁.Loses g₃ where
  above := h'.above.trans h.above
  name i := (h'.name i).trans (h.name i)
  key i := (h'.key i).trans (h.key i)
  members hm := by
    obtain ⟨m₂, hm₂, hsublist⟩ := h'.members hm
    obtain ⟨m₁, hm₁, hsublist'⟩ := h.members hm₂
    exact ⟨m₁, hm₁, fun k => (hsublist k).trans (hsublist' k)⟩

/-- Names, bases and signatures have nothing to do with members. -/
theorem mapMembers {id : EntityId} {f : Members → Members}
    (hf : ∀ m, g.members? id = some m → ∀ k, ((f m).list k).Sublist (m.list k)) :
    g.Loses (g.mapMembers id f) where
  above {x c} := by
    have hbase : (g.mapMembers id f).Base = g.Base := by
      funext x y
      unfold Base Graph.mapMembers
      rw [g.bind_entity?_modify id (Entity.base?_mapMembers · f)]
    have hpopulated :
        (∃ e, (g.mapMembers id f).entity? c = some e) ↔ ∃ e, g.entity? c = some e := by
      rw [← Option.isSome_iff_exists, ← Option.isSome_iff_exists, Graph.mapMembers, entity?_modify]
      by_cases hc : c = id
      · rw [if_pos hc, hc, Option.isSome_map]
      · rw [if_neg hc]
    constructor
    · rintro ⟨hchain, hne, hc⟩
      exact ⟨hbase ▸ hchain, hne, hpopulated.mp hc⟩
    · rintro ⟨hchain, hne, hc⟩
      exact ⟨hbase ▸ hchain, hne, hpopulated.mpr hc⟩
  name i := by
    unfold nameAndStatic?
    rw [Option.map_eq_bind, Option.map_eq_bind]
    exact g.bind_entity?_modify (f := (·.mapMembers f)) id (fun _ => rfl) i
  key i := by
    have hsignature : (g.mapMembers id f).signatureTypes = g.signatureTypes := by
      funext i
      unfold signatureTypes Graph.mapMembers
      rw [g.bind_entity?_modify id fun e => ?_]
      · rfl
      · unfold Entity.methodSignature? Entity.mapMembers
        cases e.detail <;> rfl
    unfold memberKey?
    rw [hsignature, Option.map_eq_bind, Option.map_eq_bind, Graph.mapMembers,
      g.bind_entity?_modify id fun e => ?_]
    unfold Entity.mapMembers
    cases hdetail : e.detail <;> simp [Entity.kind, hdetail, Detail.kind]
  members {x m'} hm' := by
    rw [members?_mapMembers] at hm'
    by_cases hx : x = id
    · subst hx
      rw [if_pos rfl] at hm'
      obtain ⟨m, hm, rfl⟩ := Option.map_eq_some_iff.mp hm'
      exact ⟨m, hm, hf m hm⟩
    · rw [if_neg hx] at hm'
      exact ⟨m', hm', fun _ => List.Sublist.refl _⟩

/-- Names do not change while members are lost, so that first members stay first. -/
theorem first? (h : g.Loses g') (name : String × Bool) (ids : List EntityId) :
    g'.first? name ids = g.first? name ids := by
  unfold Graph.first?
  simp only [h.name]

/-- What lists a member with the key has always done so. -/
theorem listsKey (h : g.Loses g') (hkey : g'.ListsKey c key) : g.ListsKey c key := by
  obtain ⟨m', hm', k, i, hi, hkey⟩ := hkey
  obtain ⟨m, hm, hsublist⟩ := h.members hm'
  exact ⟨m, hm, k, i, (hsublist k).subset hi, h.key i ▸ hkey⟩

/-- What is inherited in the end has been inherited before. -/
theorem inherits (h : g.Loses g') (hkey : g'.Inherits x key) : g.Inherits x key := by
  obtain ⟨c, hc, hlists⟩ := hkey
  exact ⟨c, h.above.mp hc, h.listsKey hlists⟩

/-- What stands behind another member in the end has done so before. -/
theorem listsBehind (h : g.Loses g') (hkey : g'.ListsBehind c key) : g.ListsBehind c key := by
  obtain ⟨m', k, j, i, hm', hsublist, hi, hname, hj⟩ := hkey
  obtain ⟨m, hm, hlist⟩ := h.members hm'
  refine ⟨m, k, j, i, hm, hsublist.trans (hlist k), h.key i ▸ hi, ?_, h.key j ▸ hj⟩
  rw [← h.name, ← h.name, hname]

end Loses

end Graph

namespace Draft

variable {d : Draft} {x c : EntityId} {key : MemberKey}

/-- A container that loses members loses them at most. -/
theorem Drops.loses {d' : Draft} (h : d.Drops c d') : d.graph.Loses d'.graph := by
  cases h with
  | other => exact .refl _
  | @members m after hm hlists =>
    refine .mapMembers fun m' hm' k => ?_
    obtain rfl : m = m' := Option.some.inj (hm.symm.trans hm')
    exact hlists k

/-- Containers that are cleaned in a row lose members at most. -/
theorem loses_foldl (d : Draft) (ids : List EntityId) :
    d.graph.Loses (ids.foldl dropRedundantFrom d).graph :=
  rel_foldl (R := fun d d' => d.graph.Loses d'.graph) (fun _ => .refl _) (fun h h' => h.trans h')
    (fun d c _ => (d.drops_dropRedundantFrom c).loses) d

/-! ### One container -/

/-- Only the container whose turn it is has other members then. -/
theorem members?_dropRedundantFrom (d : Draft) (c x : EntityId) :
    (d.dropRedundantFrom c).graph.members? x =
      if x = c then
        (d.graph.members? c).map (·.mapLists (d.graph.keepNew (d.graph.inheritedKeys c) []))
      else d.graph.members? x := by
  unfold dropRedundantFrom
  cases hm : d.graph.members? c with
  | none =>
    by_cases hx : x = c
    · rw [if_pos hx, hx, hm, Option.map_none]
    · rw [if_neg hx]
  | some m =>
    unfold replaceMembers
    rw [Graph.members?_mapMembers, hm]
    rfl

theorem members?_dropRedundantFrom_of_ne (h : x ≠ c) :
    (d.dropRedundantFrom c).graph.members? x = d.graph.members? x := by
  rw [members?_dropRedundantFrom, if_neg h]

/-- A container is one after its turn. -/
theorem exists_members?_dropRedundantFrom {m : Members} (hm : d.graph.members? c = some m) :
    ∃ m', (d.dropRedundantFrom c).graph.members? c = some m' := by
  rw [members?_dropRedundantFrom, if_pos rfl, hm]
  exact ⟨_, rfl⟩

/-- What another container lists it lists still. -/
theorem listsKey_dropRedundantFrom_of_ne (hx : x ≠ c) (h : d.graph.ListsKey x key) :
    (d.dropRedundantFrom c).graph.ListsKey x key := by
  obtain ⟨m, hm, k, i, hi, hkey⟩ := h
  refine ⟨m, (members?_dropRedundantFrom_of_ne hx).trans hm, k, i, hi, ?_⟩
  rw [(d.drops_dropRedundantFrom c).loses.key, hkey]

/-- A container that is not on the list keeps its members. -/
theorem members?_foldl_of_not_mem {ids : List EntityId} (h : x ∉ ids) :
    (ids.foldl dropRedundantFrom d).graph.members? x = d.graph.members? x :=
  List.foldlRecOn (motive := fun d' => d'.graph.members? x = d.graph.members? x) ids
    dropRedundantFrom rfl fun _ hd' c hc => by
      have hne : x ≠ c := fun hx => h (hx.symm ▸ hc)
      rw [members?_dropRedundantFrom_of_ne hne, hd']

/-- A member stays if it is the first of its name in the list and not inherited. -/
theorem mem_dropRedundantFrom_iff {m m' : Members} (hm : d.graph.members? c = some m)
    (hm' : (d.dropRedundantFrom c).graph.members? c = some m') {k : MemberList} {i : EntityId}
    {name : String × Bool} (hi : d.graph.nameAndStatic? i = some name) :
    i ∈ m'.list k ↔ d.graph.first? name (m.list k) = some i ∧
      ¬∃ key, d.graph.memberKey? i = some key ∧ d.graph.Inherits c key := by
  rw [members?_dropRedundantFrom, if_pos rfl, hm] at hm'
  cases hm'
  rw [Members.list_mapLists, Graph.mem_keepNew_iff hi]
  refine and_congr_right' ((and_iff_right List.not_mem_nil).trans (not_congr ?_))
  rw [Option.any_eq_true]
  refine exists_congr fun key => and_congr_right' ?_
  rw [decide_eq_true_iff, Graph.mem_inheritedKeys_iff]

/-- The first member of a name stays, or it is inherited. -/
theorem mem_or_inherits {m m' : Members} (hm : d.graph.members? c = some m)
    (hm' : (d.dropRedundantFrom c).graph.members? c = some m') {k : MemberList} {f : EntityId}
    {name : String × Bool} (hfirst : d.graph.first? name (m.list k) = some f)
    (hkey : d.graph.memberKey? f = some key) : f ∈ m'.list k ∨ d.graph.Inherits c key := by
  have hname := List.find?_some hfirst
  rw [mem_dropRedundantFrom_iff hm hm' (of_decide_eq_true hname), or_iff_not_imp_right]
  refine fun hinherited => ⟨hfirst, ?_⟩
  rintro ⟨key', hkey', h⟩
  obtain rfl : key = key' := Option.some.inj (hkey.symm.trans hkey')
  exact hinherited h

/-- A container that is cleaned lists no inherited key any more. -/
theorem not_listsKey_dropRedundantFrom (h : d.graph.Inherits c key) :
    ¬(d.dropRedundantFrom c).graph.ListsKey c key := by
  rintro ⟨m', hm', k, i, hi, hkey⟩
  have hloses := (d.drops_dropRedundantFrom c).loses
  obtain ⟨m, hm, -⟩ := hloses.members hm'
  rw [hloses.key] at hkey
  have hname := Graph.nameAndStatic?_of_memberKey? hkey
  exact ((mem_dropRedundantFrom_iff hm hm' hname).mp hi).2 ⟨key, hkey, h⟩

/-- A container that is cleaned still lists a key, unless it inherits that, or has listed it behind
another one of the same name. -/
theorem listsKey_or_inherits (hkey : d.graph.ListsKey c key)
    (hbehind : ¬d.graph.ListsBehind c key) :
    (d.dropRedundantFrom c).graph.ListsKey c key ∨ d.graph.Inherits c key := by
  obtain ⟨m, hm, k, i, hi, hkey⟩ := hkey
  have hname := Graph.nameAndStatic?_of_memberKey? hkey
  obtain ⟨j, hfirst, hjname, hj⟩ := Graph.first?_cases hi hname
  have hjkey : d.graph.memberKey? j = some key := by
    rcases hj with rfl | hsublist
    · exact hkey
    · by_contra hne
      exact hbehind ⟨m, k, j, i, hm, hsublist, hkey, hjname.trans hname.symm, hne⟩
  obtain ⟨m', hm'⟩ := exists_members?_dropRedundantFrom hm
  refine (mem_or_inherits hm hm' hfirst hjkey).imp_left fun hj => ⟨m', hm', k, j, hj, ?_⟩
  rw [(d.drops_dropRedundantFrom c).loses.key, hjkey]

/-! ### The containers that are cleaned later -/

/-- A container that is cleaned inherits what it has inherited. -/
theorem inherits_dropRedundantFrom_self (h : d.graph.Inherits c key) :
    (d.dropRedundantFrom c).graph.Inherits c key := by
  obtain ⟨b, hb, hlists⟩ := h
  exact ⟨b, (d.drops_dropRedundantFrom c).loses.above.mpr hb,
    listsKey_dropRedundantFrom_of_ne hb.ne hlists⟩

/-- When another container is cleaned, an interface inherits what it has inherited and does not
list itself, unless that other one lists it behind something else. -/
theorem inherits_dropRedundantFrom (hkey : d.graph.Inherits x key) (hself : ¬d.graph.ListsKey x key)
    (hbehind : d.graph.Above x c → ¬d.graph.ListsBehind c key) :
    (d.dropRedundantFrom c).graph.Inherits x key := by
  have hloses := (d.drops_dropRedundantFrom c).loses
  obtain ⟨b, hb, hlists⟩ := hkey
  by_cases hbc : b = c
  · subst hbc
    rcases listsKey_or_inherits hlists (hbehind hb) with hstays | ⟨a, ha, hlists'⟩
    · exact ⟨b, hloses.above.mpr hb, hstays⟩
    · -- the one above cannot be the interface itself
      have hax : a ≠ x := by
        rintro rfl
        exact hself hlists'
      exact ⟨a, hloses.above.mpr (hb.trans ha hax), listsKey_dropRedundantFrom_of_ne ha.ne hlists'⟩
  · exact ⟨b, hloses.above.mpr hb, listsKey_dropRedundantFrom_of_ne hbc hlists⟩

/-- A key stays inherited while containers are cleaned, if none of those above lists it behind
another member. -/
theorem inherits_foldl {ids : List EntityId} (hkey : d.graph.Inherits x key)
    (hself : ¬d.graph.ListsKey x key)
    (hbehind : ∀ c ∈ ids, d.graph.Above x c → ¬d.graph.ListsBehind c key) :
    (ids.foldl dropRedundantFrom d).graph.Inherits x key := by
  refine (List.foldlRecOn (motive := fun d' => d.graph.Loses d'.graph ∧ d'.graph.Inherits x key) ids
    dropRedundantFrom ⟨.refl _, hkey⟩ fun d' ⟨hloses, hkey'⟩ c hc => ?_).2
  refine ⟨hloses.trans (d'.drops_dropRedundantFrom c).loses, ?_⟩
  exact inherits_dropRedundantFrom hkey' (fun h => hself (hloses.listsKey h))
    fun hc' h => hbehind c hc (hloses.above.mp hc') (hloses.listsBehind h)

/-! ### The pass -/

/-- **Redundant members.** For every name in a list, the container still lists the first member of
that name, or that member is inherited; and it is inherited in the end as well, if no base that is
cleaned later lists its key behind another one of the same name. -/
theorem first_kept_or_inherited {before after : List EntityId} (hnodup : d.listed.Nodup)
    (hlisted : d.listed = before ++ x :: after) {m : Members} (hm : d.graph.members? x = some m)
    {k : MemberList} {i : EntityId} (hi : i ∈ m.list k) {name : String × Bool}
    (hname : d.graph.nameAndStatic? i = some name) :
    ∃ f key m', d.graph.first? name (m.list k) = some f ∧ d.graph.memberKey? f = some key ∧
      d.dropRedundant.graph.members? x = some m' ∧
        (f ∈ m'.list k ∨ d.graph.Inherits x key ∧
          ((∀ c ∈ after, d.graph.Above x c → ¬d.graph.ListsBehind c key) →
            d.dropRedundant.graph.Inherits x key)) := by
  let turn := before.foldl dropRedundantFrom d
  have hrun : d.dropRedundant = after.foldl dropRedundantFrom (turn.dropRedundantFrom x) :=
    forListed_split hlisted dropRedundantFrom
  have honce : x ∉ before ++ after :=
    (List.nodup_cons.mp (List.nodup_middle.mp (hlisted ▸ hnodup))).1
  have hbefore : x ∉ before := fun h => honce (List.mem_append_left _ h)
  have hafter : x ∉ after := fun h => honce (List.mem_append_right _ h)
  have hturn : d.graph.Loses turn.graph := loses_foldl d before
  -- the container is as it was when its turn comes, and stays as it is afterwards
  have hm₁ : turn.graph.members? x = some m := (members?_foldl_of_not_mem hbefore).trans hm
  obtain ⟨m', hm'⟩ := exists_members?_dropRedundantFrom hm₁
  obtain ⟨f, hfirst, hfname, -⟩ := Graph.first?_cases hi hname
  obtain ⟨key, hkey, -⟩ := Graph.exists_memberKey? hfname
  refine ⟨f, key, m', hfirst, hkey, ?_, ?_⟩
  · rw [hrun, members?_foldl_of_not_mem hafter]
    exact hm'
  refine (mem_or_inherits hm₁ hm' (hturn.first? _ _ ▸ hfirst) (hturn.key f ▸ hkey)).imp_right
    fun hinherited => ⟨hturn.inherits hinherited, fun hbehind => ?_⟩
  have hloses := hturn.trans (turn.drops_dropRedundantFrom x).loses
  rw [hrun]
  exact inherits_foldl (inherits_dropRedundantFrom_self hinherited)
    (not_listsKey_dropRedundantFrom hinherited)
    fun c hc hc' h => hbehind c hc (hloses.above.mp hc') (hloses.listsBehind h)

/-! ### A method that is declared twice -/

/-- A class that declares `load` twice: like its base, and then with another type. -/
def redeclaredLoad : Draft where
  graph := {
    slots := #[some (.plain "load" "M" (.method [⟨0⟩] [])),
      some (.plain "Base" "M" (.interface { Members.empty with instanceMethods := [⟨0⟩] } none [])),
      some (.plain "load" "M" (.method [⟨0⟩] [])), some (.plain "load" "M" (.method [⟨1⟩] [])),
      some (.plain "Sub" "M"
        (.interface { Members.empty with instanceMethods := [⟨2⟩, ⟨3⟩] } (some ⟨1⟩) []))]
    types := #[.scalar .void, .scalar .int] }
  listed := [⟨4⟩, ⟨1⟩]
  report := {}

/-- The class loses both methods. -/
theorem members_redeclaredLoad :
    redeclaredLoad.dropRedundant.graph.members? ⟨4⟩ = some Members.empty := by
  decide

/-- The class inherits the method that it has declared first: its base, which is cleaned later, has
nothing in front of its own. -/
theorem first_inherited_redeclaredLoad : redeclaredLoad.listed.Nodup ∧
    redeclaredLoad.listed = [] ++ ⟨4⟩ :: [⟨1⟩] ∧ ∃ m key,
      redeclaredLoad.graph.members? ⟨4⟩ = some m ∧ ⟨3⟩ ∈ m.list .instanceMethods ∧
        redeclaredLoad.graph.nameAndStatic? ⟨3⟩ = some ("load", false) ∧
          redeclaredLoad.graph.first? ("load", false) (m.list .instanceMethods) = some ⟨2⟩ ∧
            redeclaredLoad.graph.memberKey? ⟨2⟩ = some key ∧
              redeclaredLoad.dropRedundant.graph.Inherits ⟨4⟩ key := by
  have hlisted : redeclaredLoad.listed = [] ++ ⟨4⟩ :: [⟨1⟩] := rfl
  let m : Members := { Members.empty with instanceMethods := [⟨2⟩, ⟨3⟩] }
  have hm : redeclaredLoad.graph.members? ⟨4⟩ = some m := rfl
  have hi : ⟨3⟩ ∈ m.list .instanceMethods := by decide
  have hname : redeclaredLoad.graph.nameAndStatic? ⟨3⟩ = some ("load", false) := by decide
  have hfirst : redeclaredLoad.graph.first? ("load", false) (m.list .instanceMethods) =
      some ⟨2⟩ := by decide
  obtain ⟨f, key, m', hf, hkey, hm', h⟩ :=
    first_kept_or_inherited (by decide) hlisted hm hi hname
  obtain rfl : f = ⟨2⟩ := Option.some.inj (hf.symm.trans hfirst)
  refine ⟨by decide, hlisted, m, key, hm, hi, hname, hfirst, hkey, ?_⟩
  rcases h with h | ⟨-, h⟩
  · -- the class lists nothing any more
    obtain rfl : Members.empty = m' := Option.some.inj (members_redeclaredLoad.symm.trans hm')
    cases h
  · refine h fun c hc _ hbehind => ?_
    obtain rfl := List.mem_singleton.mp hc
    obtain ⟨m₀, k, j, i, hm₀, hsublist, -⟩ := hbehind
    obtain rfl : { Members.empty with instanceMethods := [⟨0⟩] } = m₀ := Option.some.inj hm₀
    -- there are no two members in a list of the base
    have hlength : 2 ≤ _ := hsublist.length_le
    cases k <;> exact absurd hlength (by decide)

/-- **A type of its own is no protection.** The second method of the class has a type that no method
of the base has, but it is dropped behind the first one, which is inherited. -/
theorem redeclared_lost : redeclaredLoad.listed.Nodup ∧ ∃ m key,
    redeclaredLoad.graph.members? ⟨4⟩ = some m ∧ ⟨3⟩ ∈ m.instanceMethods ∧
      redeclaredLoad.graph.memberKey? ⟨3⟩ = some key ∧
        redeclaredLoad.dropRedundant.graph.members? ⟨4⟩ = some Members.empty ∧
          ¬redeclaredLoad.dropRedundant.graph.Inherits ⟨4⟩ key := by
  refine ⟨by decide, _, ⟨.method, "load", false, [.scalar .int]⟩, rfl, by decide, by decide,
    members_redeclaredLoad, ?_⟩
  rw [← Graph.mem_inheritedKeys_iff]
  decide

/-! ### A method that its base loses -/

/-- A base that declares `load` twice, with two types, and a class that declares it once, like the
second of them. -/
def loadBehindLoad : Draft where
  graph := {
    slots := #[some (.plain "load" "M" (.method [⟨0⟩] [])),
      some (.plain "load" "M" (.method [⟨1⟩] [])),
      some (.plain "Base" "M"
        (.interface { Members.empty with instanceMethods := [⟨0⟩, ⟨1⟩] } none [])),
      some (.plain "load" "M" (.method [⟨1⟩] [])),
      some (.plain "Sub" "M"
        (.interface { Members.empty with instanceMethods := [⟨3⟩] } (some ⟨2⟩) []))]
    types := #[.scalar .void, .scalar .int] }
  listed := [⟨4⟩, ⟨2⟩]
  report := {}

/-- What is inherited when it is dropped may be gone in the end: the base has its turn after the
class, and drops the method itself, which stands behind the other one. -/
theorem inherited_lost_loadBehindLoad : ∃ key,
    loadBehindLoad.graph.memberKey? ⟨3⟩ = some key ∧ loadBehindLoad.graph.ListsKey ⟨4⟩ key ∧
      loadBehindLoad.graph.Inherits ⟨4⟩ key ∧ loadBehindLoad.graph.ListsBehind ⟨2⟩ key ∧
        ¬loadBehindLoad.dropRedundant.graph.ListsKey ⟨4⟩ key ∧
          ¬loadBehindLoad.dropRedundant.graph.Inherits ⟨4⟩ key := by
  let key : MemberKey := ⟨.method, "load", false, [.scalar .int]⟩
  have hkey : loadBehindLoad.graph.memberKey? ⟨3⟩ = some key := by decide
  have hmembers : loadBehindLoad.dropRedundant.graph.members? ⟨4⟩ = some Members.empty := by decide
  refine ⟨key, hkey, ?lists, ?inherits, ?behind, ?dropped, ?lost⟩
  case lists => exact ⟨_, rfl, .instanceMethods, ⟨3⟩, List.mem_singleton_self _, hkey⟩
  case inherits =>
    rw [← Graph.mem_inheritedKeys_iff]
    decide
  case behind =>
    refine ⟨_, .instanceMethods, ⟨0⟩, ⟨1⟩, rfl, List.Sublist.refl _, ?_, ?_, ?_⟩ <;> decide
  case dropped =>
    rintro ⟨m, hm, k, i, hi, -⟩
    obtain rfl : Members.empty = m := Option.some.inj (hmembers.symm.trans hm)
    cases k <;> cases hi
  case lost =>
    rw [← Graph.mem_inheritedKeys_iff]
    decide

end Draft

end InteropGraph
