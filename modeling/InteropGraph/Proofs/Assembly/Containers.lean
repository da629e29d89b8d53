import InteropGraph.Proofs.Assembly.Gathered
import InteropGraph.Proofs.Assembly.Growth
import InteropGraph.Proofs.Assembly.Nested
import InteropGraph.Proofs.Assembly.Sound
import InteropGraph.Proofs.Source

/-!
# Containers and what was around them

`Contained unit active a` adds to what is known of an assembly how its containers have come to their
members: each has gathered them on top of a stack of constructions that can really occur, and what
was known then is still true. Requests keep this, if they are made from inside of such a stack
(`request_contained`).
-/

namespace InteropGraph.Assembly

variable {unit : SourceUnit} {settings : Settings} {entity : Request} {a b c : Assembly}
  {active stack : List DeclRef} {d : DeclRef} {decl : Declaration} {owner : String}

/-! ### Steps before members are gathered -/

/-- What has become ready on the way to an extension is complete. -/
theorem Filled.extends (h : Filled stack a) (hab : Extends unit a b) : Filled stack b := by
  intro d id hd
  rcases hab.made hd with hold | ⟨-, e, he, -⟩
  · refine (h d id hold).imp_right ?_
    rintro ⟨e, he⟩
    exact ⟨e, hab.entity he⟩
  · exact .inr ⟨e, he⟩

/-- The entity of what has been requested is where the answer says. -/
theorem answer?_of_request {id : EntityId}
    (h : (request unit settings active d owner).run a = (.ok id, b)) :
    b.answer? d = some (.ok id) := by
  obtain ⟨r, hd, hrun⟩ | ⟨-, -, hrun⟩ | ⟨decl, -, -, -, hrun⟩ | ⟨decl, hd, hu, -, hrun⟩ :=
    request_cases unit settings active d owner a
  · cases hrun.symm.trans h
    exact hd
  · cases hrun.symm.trans h
  · cases hrun.symm.trans h
  · have hbuild : Extending unit (build unit settings (request unit settings (d :: active)) d decl
        owner) := build_extending (request_extending unit settings (d :: active)) d decl owner
    have hext := hbuild (a.begin d).2
    rw [hrun, run_construct] at h
    rcases hbuilt : (build unit settings (request unit settings (d :: active)) d decl
      owner).run (a.begin d).2 with ⟨f | e, c⟩
    · rw [hbuilt] at h
      cases h
    · rw [hbuilt] at h hext
      cases h
      exact hext.answer (by rw [answer?_begin, if_pos rfl])

section Build

variable (hentity : ∀ d owner, Extending unit (entity d owner))
  (hanswer : ∀ d owner a id b, (entity d owner).run a = (.ok id, b) → b.answer? d = some (.ok id))
include hentity hanswer

/-- The members that a container gets have been gathered. -/
theorem gathered_of_gatherMembers (ha : Filled stack a) {refs : MemberRefs} {m : Members}
    (h : (gatherMembers entity refs owner).run a = (.ok m, b)) : Gathered b stack refs m := by
  have hassures := gatherMembers_assures (I := Filled stack) (E := True) (fun _ h => h)
    (fun d owner c hc => ⟨True, .of_extends (hentity d owner c), hc.extends (hentity d owner c),
      fun id hid => hanswer d owner c id _ (Prod.ext hid rfl), fun _ _ => trivial⟩) ha refs owner
  have hgathered := hassures.success m (by rw [h])
  rwa [h] at hgathered

/-- The members of a container are gathered in the end. -/
theorem buildShape_gathered (ha : Filled stack a) {e : Entity} {m : Members}
    (h : (buildShape unit settings entity decl owner).run a = (.ok e, b))
    (hm : e.members? = some m) :
    ∃ refs, decl.shape.members? = some refs ∧ Gathered b stack refs m := by
  have hkind := (buildShape_yields decl owner a e (by rw [h])).2
  unfold buildShape at h
  cases hshape : decl.shape with
  | interface superclass refs typeParameters =>
    rw [hshape] at h
    obtain ⟨base, c, hbase, h⟩ := of_run_bind h
    obtain ⟨members, c', hmembers, hpure⟩ := of_run_bind h
    cases hpure
    cases hm
    have hext : Extends unit a c := by
      have hextending : Extending unit (optionalDependency unit entity "" superclass) :=
        ((extending_composes unit).optionalDependency fun x _ => ⟨rfl, hentity x ""⟩).2
      have h := hextending a
      rwa [hbase] at h
    exact ⟨refs, rfl, gathered_of_gatherMembers hentity hanswer (ha.extends hext) hmembers⟩
  | protocol refs =>
    rw [hshape] at h
    obtain ⟨members, c, hmembers, hpure⟩ := of_run_bind h
    cases hpure
    cases hm
    exact ⟨refs, rfl, gathered_of_gatherMembers hentity hanswer ha hmembers⟩
  | category extended refs =>
    rw [hshape] at h
    obtain ⟨id, c, hextended, h⟩ := of_run_bind h
    obtain ⟨members, c', hmembers, hpure⟩ := of_run_bind h
    cases hpure
    cases hm
    have hext : Extends unit a c := by
      have hextending : Extending unit (dependency unit entity extended "") :=
        ((extending_composes unit).dependency ⟨rfl, hentity extended ""⟩).2
      have h := hextending a
      rwa [hextended] at h
    exact ⟨refs, rfl, gathered_of_gatherMembers hentity hanswer (ha.extends hext) hmembers⟩
  | function | record | «variable» | enumeration | enumConstant | method | property =>
    rw [hshape] at hkind
    rcases Entity.kind_of_members? hm with hk | hk | hk <;> cases hk.symm.trans hkind

/-- Whatever is built lists what it has gathered, if it lists anything. -/
theorem build_gathered (ha : Filled stack a) {e : Entity} {m : Members}
    (h : (build unit settings entity d decl owner).run a = (.ok e, b))
    (hm : e.members? = some m) :
    ∃ refs, decl.shape.members? = some refs ∧ Gathered b stack refs m := by
  obtain ⟨window, c, hwindow, h⟩ := of_run_bind h
  obtain ⟨e', c', he, hpure⟩ := of_run_bind h
  rw [run_ofExcept] at hwindow
  obtain rfl : a = c := (Prod.mk.inj hwindow).2
  cases hpure
  exact buildShape_gathered hentity hanswer ha he hm

end Build

/-! ### The state -/

/-- The container at `d` has gathered the members `m` on top of some constructions. -/
def GatheredWithin (unit : SourceUnit) (a : Assembly) (d : DeclRef) (m : Members) : Prop :=
  ∃ decl refs stack, unit.declaration? d = some decl ∧ decl.shape.members? = some refs ∧
    Nested unit (d :: stack) ∧ Gathered a (d :: stack) refs m

/-- What has been gathered stays so. -/
theorem GatheredWithin.mono (hab : Grows a b) {m : Members} (h : GatheredWithin unit a d m) :
    GatheredWithin unit b d m := by
  obtain ⟨decl, refs, stack, hdecl, hrefs, hnested, hgathered⟩ := h
  exact ⟨decl, refs, stack, hdecl, hrefs, hnested, hgathered.mono hab⟩

/-- What is ready has a slot and is complete unless it is under construction, and what is complete
and a container has gathered its members. -/
structure Contained (unit : SourceUnit) (active : List DeclRef) (a : Assembly) : Prop where
  inRange : ∀ {d id}, a.answer? d = some (.ok id) → id.index < a.graph.slots.size
  filled : Filled active a
  gathered : ∀ {d id e m}, a.answer? d = some (.ok id) → a.graph.entity? id = some e →
    e.source = some d → e.members? = some m → GatheredWithin unit a d m

namespace Contained

theorem empty (unit : SourceUnit) : Contained unit [] .empty where
  inRange h := nomatch h
  filled _ _ h := nomatch h
  gathered h := nomatch h

theorem countHit (h : Contained unit active a) : Contained unit active a.countHit where
  inRange := h.inRange
  filled := h.filled
  gathered hx he hs hm := (h.gathered hx he hs hm).mono (.of_extends (.countHit unit a))

theorem addType (h : Contained unit active a) (t : TypeRef) (type : BridgeType) :
    Contained unit active ((Assembly.addType t type).run a).2 where
  inRange := h.inRange
  filled := h.filled
  gathered hx he hs hm := (h.gathered hx he hs hm).mono (.addType a t type)

/-- The new slot is vacant, and is that of the construction that begins. -/
theorem begin (h : Contained unit active a) (hd : a.answer? d = none) :
    Contained unit (d :: active) (a.begin d).2 where
  inRange {x id} hx := by
    rw [answer?_begin] at hx
    rw [size_begin]
    by_cases hxd : x = d
    · rw [if_pos hxd] at hx
      cases hx
      exact Nat.lt_succ_self _
    · rw [if_neg hxd] at hx
      exact Nat.lt_succ_of_lt (h.inRange hx)
  filled x id hx := by
    rw [answer?_begin] at hx
    by_cases hxd : x = d
    · exact .inl (List.mem_cons.mpr (.inl hxd))
    · rw [if_neg hxd] at hx
      rw [entity?_begin]
      exact (h.filled x id hx).imp_left (List.mem_cons_of_mem d)
  gathered {x id e m} hx he hs hm := by
    rw [answer?_begin] at hx
    rw [entity?_begin] at he
    by_cases hxd : x = d
    · -- the slot of `d` is new
      rw [if_pos hxd] at hx
      cases hx
      exact absurd (Graph.index_lt_of_entity? he) (Nat.lt_irrefl _)
    · rw [if_neg hxd] at hx
      exact (h.gathered hx he hs hm).mono (.begin hd)

/-- The entity that is put into a slot has gathered its members while it was under way. -/
theorem complete (hext : Extends unit (a.begin d).2 b) (h : Contained unit (d :: active) b)
    {e : Entity} (hsource : e.source = some d)
    (he : ∀ m, e.members? = some m → GatheredWithin unit b d m) :
    Contained unit active (b.complete (a.begin d).1 e) where
  inRange hx := by
    show _ < (b.graph.slots.setIfInBounds _ _).size
    rw [Array.size_setIfInBounds]
    exact h.inRange hx
  filled x id hx := by
    have hslot : b.answer? d = some (.ok (a.begin d).1) :=
      hext.answer (by rw [answer?_begin, if_pos rfl])
    have hx' : b.answer? x = some (.ok id) := hx
    rw [entity?_complete hext]
    by_cases hxd : x = d
    · -- the construction has filled the slot of `d`
      rw [hxd, hslot] at hx'
      cases hx'
      exact .inr ⟨e, if_pos rfl⟩
    · refine (h.filled x id hx').imp (fun hmem => (List.mem_cons.mp hmem).resolve_left hxd) ?_
      rintro ⟨e', he'⟩
      by_cases hid : id = (a.begin d).1
      · exact ⟨e, if_pos hid⟩
      · exact ⟨e', by rw [if_neg hid, he']⟩
  gathered {x id e' m} hx he' hs hm := by
    refine GatheredWithin.mono (.complete hext e) ?_
    rw [entity?_complete hext] at he'
    by_cases hid : id = (a.begin d).1
    · rw [if_pos hid] at he'
      cases he'
      obtain rfl : d = x := Option.some.inj (hsource.symm.trans hs)
      exact he m hm
    · rw [if_neg hid] at he'
      exact h.gathered hx he' hs hm

/-- What is ready after a construction has failed was ready before, in the same slot. -/
theorem abandon (h : Contained unit active a) (hext : Extends unit (a.begin d).2 b)
    (hd : a.answer? d = none) (hdecl : (unit.declaration? d).isSome) (f : Failure) :
    Contained unit active (b.abandon a.mark d f) := by
  have hlater : Extends unit a (b.abandon a.mark d f) := abandon_extends hext hd hdecl f
  have hready {x : DeclRef} {id : EntityId}
      (hx : (b.abandon a.mark d f).answer? x = some (.ok id)) : a.answer? x = some (.ok id) :=
    ((abandon_restores hext hd f).ready x id).mp hx
  refine ⟨fun hx => Nat.lt_of_lt_of_le (h.inRange (hready hx)) hlater.size_le,
    h.filled.extends hlater, fun {x id e m} hx he hs hm => ?_⟩
  rw [Graph.entity?_congr (hlater.slot (h.inRange (hready hx)))] at he
  exact (h.gathered (hready hx) he hs hm).mono (.of_extends hlater)

/-- When nothing is under construction, every container has gathered its members. -/
theorem gatheredWithin (h : Contained unit [] a) (hsound : Sound unit settings [] a)
    {x : EntityId} {m : Members} (hx : a.answer? d = some (.ok x))
    (hm : a.graph.members? x = some m) : GatheredWithin unit a d m := by
  obtain ⟨e, he, hmembers⟩ := Graph.members?_eq_some_iff.mp hm
  obtain ⟨decl, hcomplete⟩ := hsound.complete_of_entity hx he
  exact h.gathered hx he hcomplete.source hmembers

end Contained

/-! ### Requests -/

/-- Requests keep containers as they are said to be, with or without constructions around them. -/
theorem request_contained (active : List DeclRef) (d : DeclRef) (owner : String)
    (h : d ∉ active → (unit.declaration? d).isSome → Nested unit (d :: active)) :
    Agrees (Contained unit active) EntityId (request unit settings active d owner)
      (request unit settings active d owner) := by
  induction active, d, owner using request.induct unit with
  | case1 active d owner ih =>
    refine fun a ha => ⟨rfl, ?_⟩
    obtain ⟨r, -, hrun⟩ | ⟨-, -, hrun⟩ | ⟨decl, -, -, -, hrun⟩ | ⟨decl, hd, hu, hactive, hrun⟩ :=
      request_cases unit settings active d owner a
    · rw [hrun]
      exact ha.countHit
    · rw [hrun]
      exact ha
    · rw [hrun]
      exact ha
    · have hdecl : (unit.declaration? d).isSome := by rw [hu]; rfl
      have hnested := h hactive hdecl
      have hentity := request_extending unit settings (d :: active)
      -- whatever the construction asks for is one step further inside
      have hinside (x : DeclRef) (owner : String) (hx : Asks unit d x) :
          Agrees (Contained unit (d :: active)) EntityId
            (request unit settings (d :: active) x owner)
            (request unit settings (d :: active) x owner) :=
        ih decl hu hactive x owner fun hfresh _ => .inside hnested hx hfresh
      have hrelated : ShapeRelated (Agrees (Contained unit (d :: active))) unit
          (request unit settings (d :: active)) (request unit settings (d :: active))
          decl.shape := by
        refine ⟨fun x hx owner => hinside x owner (.itself hu hx), fun t ht => ?_⟩
        refine .resolve_within (S := Relation.ReflTransGen (fun t u => IsPart unit u t) t)
          (fun v node hv hnode w hw => hv.tail ⟨node, hnode, hw⟩)
          (fun v node hv hnode x hx owner => hinside x owner (.typed hu ht hv hnode hx))
          (fun _ v _ type _ b _ _ _ _ hb => hb.addType v type) [] t .refl
      have hbuild : Extending unit (build unit settings (request unit settings (d :: active)) d
          decl owner) := build_extending hentity d decl owner
      have hagrees : Agrees (Contained unit (d :: active)) Entity
          (build unit settings (request unit settings (d :: active)) d decl owner)
          (build unit settings (request unit settings (d :: active)) d decl owner) :=
        (Agrees.composes _).build hrelated owner
      have hext := hbuild (a.begin d).2
      have hb := (hagrees (a.begin d).2 (ha.begin hd)).2
      rw [hrun, run_construct]
      rcases hbuilt : (build unit settings (request unit settings (d :: active)) d decl
        owner).run (a.begin d).2 with ⟨f | e, b⟩
      · rw [hbuilt] at hext
        exact ha.abandon hext hd hdecl f
      · rw [hbuilt] at hext hb
        refine .complete hext hb (source_of_build hbuilt) fun m hm => ?_
        obtain ⟨refs, hrefs, hgathered⟩ := build_gathered hentity
          (fun _ _ _ _ _ => answer?_of_request) (ha.begin hd).filled hbuilt hm
        exact ⟨decl, refs, active, hu, hrefs, hnested, hgathered⟩

/-- A request from outside for a top-level declaration. -/
theorem create_contained {d : DeclRef × Declaration} (hd : d ∈ unit.topLevel) (owner : String) :
    Agrees (Contained unit []) EntityId (create unit settings d.1 owner)
      (create unit settings d.1 owner) := by
  obtain ⟨hdecl, htop⟩ := SourceUnit.mem_topLevel_iff.mp hd
  exact request_contained [] d.1 owner fun _ _ => .top hdecl htop

end InteropGraph.Assembly
