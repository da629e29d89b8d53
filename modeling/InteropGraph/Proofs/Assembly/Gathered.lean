import InteropGraph.Proofs.Assembly.Assures
import InteropGraph.Proofs.Assembly.Describes
import InteropGraph.Proofs.Graph.Members

/-!
# What gathering members assures

The members of a container are looked at when they have been made: whether they are static, what
they are called, and whether a protocol is one. All of this is right for what is complete by then.
A declaration that is still under construction has nothing but a vacant slot: that counts as not
static, has no name, and may be listed as a protocol. So what is known of gathered members depends
on the constructions that were under way (`Gathered`).
-/

namespace InteropGraph

/-- The declarations that the list `k` of a container is made from. -/
def MemberRefs.list (refs : MemberRefs) (k : MemberList) : List DeclRef :=
  match k.kind with
  | .method => refs.methods
  | _ => refs.properties

/-- Each of the lists is made from methods or from properties. -/
theorem MemberRefs.mem_of_mem_list {refs : MemberRefs} {k : MemberList} {d : DeclRef}
    (h : d ∈ refs.list k) : d ∈ refs.methods ++ refs.properties := by
  cases k with
  | instanceMethods | staticMethods => exact List.mem_append_left _ h
  | instanceProperties | staticProperties => exact List.mem_append_right _ h

namespace Assembly

variable {a b : Assembly} {stack : List DeclRef}

/-- What is ready and not under construction is complete. -/
def Filled (stack : List DeclRef) (a : Assembly) : Prop :=
  ∀ d id, a.answer? d = some (.ok id) → d ∈ stack ∨ ∃ e, a.graph.entity? id = some e

/-- The entity of `p` is at `i`; if it is complete, then it is a protocol. -/
structure ProtocolAt (stack : List DeclRef) (p : DeclRef) (i : EntityId) (a : Assembly) : Prop where
  answer : a.answer? p = some (.ok i)
  kind : p ∈ stack ∨ a.graph.kind? i = some .protocol

/-- The entity of `d` is at `i`; if it is complete, then it is known whether it is static. -/
structure MemberAt (stack : List DeclRef) (static : Bool) (d : DeclRef) (i : EntityId)
    (a : Assembly) : Prop where
  answer : a.answer? d = some (.ok i)
  entity : d ∈ stack ∨ ∃ e, a.graph.entity? i = some e ∧ e.flags.static = static

/-- What is known of the members that have been gathered while the declarations in `stack` were
under construction. -/
structure Gathered (a : Assembly) (stack : List DeclRef) (refs : MemberRefs) (m : Members) :
    Prop where
  protocols : ∀ i ∈ m.protocols, ∃ p ∈ refs.protocols, ProtocolAt stack p i a
  members : ∀ k, ∀ i ∈ m.list k, ∃ d ∈ refs.list k, MemberAt stack k.isStatic d i a
  sorted : (∀ d ∈ refs.methods ++ refs.properties, d ∉ stack) → ∀ k, a.graph.Sorted (m.list k)

/-- An entity that is complete stays as it is. -/
theorem ProtocolAt.mono (hab : Grows a b) {p : DeclRef} {i : EntityId}
    (h : ProtocolAt stack p i a) : ProtocolAt stack p i b := by
  refine ⟨hab.ready h.answer, h.kind.imp_right fun hkind => ?_⟩
  obtain ⟨e, he, hkind⟩ := Option.map_eq_some_iff.mp hkind
  exact Option.map_eq_some_iff.mpr ⟨e, hab.entity he, hkind⟩

/-- An entity that is complete stays as it is. -/
theorem MemberAt.mono (hab : Grows a b) {static : Bool} {d : DeclRef} {i : EntityId}
    (h : MemberAt stack static d i a) : MemberAt stack static d i b := by
  refine ⟨hab.ready h.answer, h.entity.imp_right ?_⟩
  rintro ⟨e, he, hstatic⟩
  exact ⟨e, hab.entity he, hstatic⟩

/-- Members that have been gathered are made from those that are declared. -/
theorem Gathered.gathers {refs : MemberRefs} {m : Members} (h : Gathered a stack refs m) :
    Gathers a refs m where
  members i hi := by
    obtain ⟨k, hi⟩ := Members.mem_all_iff.mp hi
    obtain ⟨d, hd, hmember⟩ := h.members k i hi
    exact ⟨d, MemberRefs.mem_of_mem_list hd, hmember.answer⟩
  protocols i hi := by
    obtain ⟨p, hp, hprotocol⟩ := h.protocols i hi
    exact ⟨p, hp, hprotocol.answer⟩

/-- What is complete keeps its name, so that members stay sorted. -/
theorem Grows.sorted (hab : Grows a b) {ids : List EntityId}
    (hids : ∀ i ∈ ids, ∃ e, a.graph.entity? i = some e) (h : a.graph.Sorted ids) :
    b.graph.Sorted ids := by
  have hkey {i : EntityId} (hi : i ∈ ids) : b.graph.sortKey i = a.graph.sortKey i := by
    obtain ⟨e, he⟩ := hids i hi
    unfold Graph.sortKey Graph.bridgeName
    rw [he, hab.entity he]
  refine h.imp_of_mem fun {i j} hi hj hij => ?_
  rw [hkey hi, hkey hj]
  exact hij

/-- What is known of members is not lost. -/
theorem Gathered.mono (hab : Grows a b) {refs : MemberRefs} {m : Members}
    (h : Gathered a stack refs m) : Gathered b stack refs m where
  protocols i hi := by
    obtain ⟨p, hp, hprotocol⟩ := h.protocols i hi
    exact ⟨p, hp, hprotocol.mono hab⟩
  members k i hi := by
    obtain ⟨d, hd, hmember⟩ := h.members k i hi
    exact ⟨d, hd, hmember.mono hab⟩
  sorted hfree k := by
    refine hab.sorted (fun i hi => ?_) (h.sorted hfree k)
    obtain ⟨d, hd, hmember⟩ := h.members k i hi
    obtain ⟨e, he, -⟩ :=
      hmember.entity.resolve_left (hfree d (MemberRefs.mem_of_mem_list hd))
    exact ⟨e, he⟩

/-- What is picked is known to be static or not. -/
theorem mem_pick {static : Bool} {ids : List (EntityId × Bool)} {id : EntityId}
    (h : id ∈ pick static ids) : (id, static) ∈ ids := by
  obtain ⟨⟨i, b⟩, hmem, rfl⟩ := List.mem_map.mp h
  obtain ⟨hmem, hstatic⟩ := List.mem_filter.mp hmem
  rwa [← of_decide_eq_true hstatic]

/-! ### Gathering -/

section Gather

variable {I : Assembly → Prop} {entity : Request} (hfilled : ∀ a, I a → Filled stack a)
  (hentity : ∀ d owner a, I a → ∃ E,
    Assures I (entity d owner) a (fun id b => b.answer? d = some (.ok id)) E)
include hfilled hentity

/-- What is complete and no protocol is left out, like what fails. -/
theorem gatherProtocols_assures (ha : I a) (protocols : List DeclRef) :
    Assures I (gatherProtocols entity protocols) a
      (fun ids b => ∀ i ∈ ids, ∃ p ∈ protocols, ProtocolAt stack p i b) False := by
  refine .filterMapM (fun _ _ _ _ hbc h => h.mono hbc) (fun p _ b _ hb => ?_) ha
  obtain ⟨E, hp⟩ := hentity p "" b hb
  refine hp.attempt.bind fun id? c _ hc hid => ?_
  cases id? with
  | none => exact .pure hc nofun
  | some id =>
    refine (Assures.currentGraph hc).bind fun g c' hcc hc' hg => .pure hc' fun i hi => ?_
    have hanswer := hcc.ready (hid id rfl)
    by_cases hmay : mayBeProtocol g id
    · rw [if_pos hmay] at hi
      cases hi
      refine ⟨hanswer, (hfilled c' hc' p id hanswer).imp_right ?_⟩
      rintro ⟨e, he⟩
      unfold mayBeProtocol at hmay
      rw [hg] at hmay
      unfold Graph.kind? at hmay ⊢
      rw [he] at hmay ⊢
      exact congrArg some (of_decide_eq_true hmay)
    · rw [if_neg hmay] at hi
      cases hi

/-- Each member that is gathered comes with the knowledge whether it is static; those that fail are
left out. -/
theorem gatherStatic_assures (ha : I a) (members : List DeclRef) (owner : String) :
    Assures I (gatherStatic entity members owner) a
      (fun ids b => ∀ p ∈ ids, ∃ d ∈ members, MemberAt stack p.2 d p.1 b) False := by
  refine .filterMapM (P := fun d (p : EntityId × Bool) b => MemberAt stack p.2 d p.1 b)
    (fun _ _ _ _ hbc h => h.mono hbc) (fun d _ b _ hb => ?_) ha
  obtain ⟨E, hd⟩ := hentity d owner b hb
  refine hd.attempt.bind fun id? c _ hc hid => ?_
  cases id? with
  | none => exact .pure hc nofun
  | some id =>
    refine (Assures.currentGraph hc).bind fun g c' hcc hc' hg => .pure hc' fun p hp => ?_
    cases hp
    have hanswer := hcc.ready (hid id rfl)
    refine ⟨hanswer, (hfilled c' hc' d id hanswer).imp_right ?_⟩
    rintro ⟨e, he⟩
    refine ⟨e, he, ?_⟩
    rw [hg]
    unfold Graph.isStatic
    rw [he]
    rfl

/-- What cannot be made is left out, so members never fail. -/
theorem gatherMembers_assures (ha : I a) (refs : MemberRefs) (owner : String) {E : Prop} :
    Assures I (gatherMembers entity refs owner) a (fun m b => Gathered b stack refs m) E := by
  refine Assures.orElse (E := False) ?_ False.elim
  refine (gatherProtocols_assures hfilled hentity ha refs.protocols).bind
    fun protocols b _ hb hps => ?_
  refine (gatherStatic_assures hfilled hentity hb refs.methods owner).bind
    fun methods c hbc hc hms => ?_
  refine (gatherStatic_assures hfilled hentity hc refs.properties owner).bind
    fun properties d hcd hd hqs => ?_
  refine (Assures.currentGraph hd).bind fun g e hde he hg => .pure he ?_
  have hpicked {x : Assembly} (hxe : Grows x e) {ds : List DeclRef} {static : Bool}
      {ids : List (EntityId × Bool)} {i : EntityId}
      (hids : ∀ p ∈ ids, ∃ d ∈ ds, MemberAt stack p.2 d p.1 x) (hi : i ∈ pick static ids) :
      ∃ d ∈ ds, MemberAt stack static d i e := by
    obtain ⟨d, hd, hmember⟩ := hids _ (mem_pick hi)
    exact ⟨d, hd, hmember.mono hxe⟩
  unfold Graph.sortMembers
  refine ⟨fun i hi => ?_, fun k i hi => ?_, fun _ k => ?_⟩
  · obtain ⟨p, hp, hprotocol⟩ := hps i hi
    exact ⟨p, hp, hprotocol.mono (hbc.trans (hcd.trans hde))⟩
  · rw [Members.list_mapLists, Graph.mem_sortByName] at hi
    cases k with
    | instanceMethods | staticMethods => exact hpicked (hcd.trans hde) hms hi
    | instanceProperties | staticProperties => exact hpicked hde hqs hi
  · rw [hg, Members.list_mapLists]
    exact Graph.sorted_sortByName e.graph _

end Gather

end Assembly

end InteropGraph
