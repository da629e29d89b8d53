import InteropGraph.Proofs.Dump
import InteropGraph.Proofs.Pass.Rearranged
import Mathlib

/-!
# Lists of members

If members exist only inside of containers, then a container finds all its members complete when it
gathers them. It puts them into the lists where they fit, by kind and by whether they are static,
and sorts each list by name. The passes keep it so (`Graph.InOrder`): what they move fits where it
is put, and they give other names only to what is listed, which is never a member.

Mathlib is imported whole for `cbv`, which evaluates the example, and which would otherwise state
equations of its own for functions of the library.
-/

namespace InteropGraph

namespace Graph

variable {g g' : Graph} {L : List EntityId} {T : Set EntityId}

/-- There is an entity at `i`, and it belongs into the list `k` of its container. -/
def Fits (g : Graph) (k : MemberList) (i : EntityId) : Prop :=
  ∃ e, g.entity? i = some e ∧ e.kind = k.kind ∧ e.flags.static = k.isStatic

/-- Every list of members holds what fits there, sorted by name. -/
structure Arranges (g : Graph) (m : Members) : Prop where
  fits : ∀ k, ∀ i ∈ m.list k, g.Fits k i
  sorted : ∀ k, g.Sorted (m.list k)

/-- The entities in `L` are no members. They are among the containers and other entities `T`, and
the containers among those have their members arranged. -/
structure InOrder (g : Graph) (L : List EntityId) (T : Set EntityId) : Prop where
  outside : ∀ i ∈ L, ∃ e, g.entity? i = some e ∧ ∀ k : MemberList, e.kind ≠ k.kind
  subset : ∀ i ∈ L, i ∈ T
  arranged : ∀ x ∈ T, ∀ m, g.members? x = some m → g.Arranges m

/-- An entity fits into a list as long as it has its kind and is static or not. -/
theorem Fits.retained {k : MemberList} {i : EntityId} (h : g.Fits k i) (hg : g.Retains g') :
    g'.Fits k i := by
  obtain ⟨e, he, hkind, hstatic⟩ := h
  obtain ⟨e', he', hsame⟩ := hg.kept he
  exact ⟨e', he', hsame.kind.trans hkind, hsame.static.trans hstatic⟩

/-- A property of instances that stands for no declaration fits into its list. -/
theorem MadeUp.fits {k : MemberList} {i : EntityId} (h : g.MadeUp k i) : g.Fits k i := by
  obtain ⟨rfl, e, he, -, hkind, hstatic⟩ := h
  exact ⟨e, he, hkind, hstatic⟩

/-- What fits into a list of members is not listed at the top level. -/
theorem InOrder.not_mem (h : g.InOrder L T) {k : MemberList} {i : EntityId} (hi : g.Fits k i) :
    i ∉ L := by
  intro hL
  obtain ⟨e, he, hkind, -⟩ := hi
  obtain ⟨e', he', houtside⟩ := h.outside i hL
  obtain rfl : e = e' := Option.some.inj (he.symm.trans he')
  exact houtside k hkind

/-- The members that a step keeps keep their names; whatever it adds is sorted in. -/
theorem InOrder.rearranges (h : g.InOrder L T) (hstep : g.Rearranges L g') : g'.InOrder L T where
  outside i hi := by
    obtain ⟨e, he, houtside⟩ := h.outside i hi
    obtain ⟨e', he', hsame⟩ := hstep.retains.kept he
    exact ⟨e', he', fun k => hsame.kind ▸ houtside k⟩
  subset := h.subset
  arranged x hx m' hm' := by
    obtain ⟨m, hm, hlists, -⟩ := hstep.members hm'
    have hbefore := h.arranged x hx m hm
    refine ⟨fun k i hi => ?_, fun k => ?_⟩
    · rcases hlists k with hsublist | ⟨hmem, -⟩
      · exact (hbefore.fits k i (hsublist.subset hi)).retained hstep.retains
      · rcases hmem i hi with hold | ⟨additions, hextension, hadded⟩ | hmadeUp
        · exact (hbefore.fits k i hold).retained hstep.retains
        · obtain ⟨c, hc, hadditions⟩ := hextension.members?
          have hcategory := h.arranged c (h.subset c hc) additions hadditions
          exact (hcategory.fits k i hadded).retained hstep.retains
        · exact hmadeUp.fits
    · rcases hlists k with hsublist | ⟨-, hsorted⟩
      · refine hstep.sorted (fun i hi => ?_) ((hbefore.sorted k).sublist hsublist)
        have hfits := hbefore.fits k i (hsublist.subset hi)
        refine ⟨h.not_mem hfits, ?_⟩
        obtain ⟨e, he, -⟩ := hfits
        exact ⟨e, he⟩
      · exact hsorted

/-- Members are in order after any row of steps, since what is listed then comes from lists that
were in order. -/
theorem InOrder.rearranged (h : g.InOrder L T) (hrun : g.Rearranged L g') : g'.InOrder L T := by
  induction hrun with
  | refl => exact h
  | tail _ hstep ih => exact ih.rearranges hstep

end Graph

/-! ### The intake -/

variable {unit : SourceUnit} {settings : Settings}

/-- Methods are listed as methods, and properties as properties. -/
theorem SourceUnit.MembersInside.kind_of_mem_list (h : unit.MembersInside) {c d : DeclRef}
    {decl member : Declaration} {refs : MemberRefs} {k : MemberList}
    (hdecl : unit.declaration? c = some decl) (hrefs : decl.shape.members? = some refs)
    (hd : d ∈ refs.list k) (hmember : unit.declaration? d = some member) :
    member.shape.entityKind = k.kind := by
  cases k with
  | instanceMethods | staticMethods => exact h.methods hdecl hrefs hd hmember
  | instanceProperties | staticProperties => exact h.properties hdecl hrefs hd hmember

/-- None of its members is under construction when a container gathers them. -/
theorem Assembly.Contained.arranges {a : Assembly} (h : Assembly.Contained unit [] a)
    (hsound : Assembly.Sound unit settings [] a) (hinside : unit.MembersInside) {d : DeclRef}
    {x : EntityId} {m : Members} (hx : a.answer? d = some (.ok x))
    (hm : a.graph.members? x = some m) : a.graph.Arranges m := by
  obtain ⟨decl, refs, stack, hdecl, hrefs, hnested, hgathered⟩ := h.gatheredWithin hsound hx hm
  have hfree : ∀ y ∈ refs.methods ++ refs.properties, y ∉ d :: stack := fun y hy =>
    hinside.not_mem_of_nested hnested ⟨decl, refs, hdecl, hrefs, hy⟩
  refine ⟨fun k i hi => ?_, hgathered.sorted hfree⟩
  obtain ⟨y, hy, hmember⟩ := hgathered.members k i hi
  obtain ⟨e, he, hstatic⟩ :=
    hmember.entity.resolve_left (hfree y (MemberRefs.mem_of_mem_list hy))
  obtain ⟨member, hmade⟩ := hsound.complete_of_entity hmember.answer he
  have hkind : e.kind = member.shape.entityKind := hmade.describes.kind_eq
  exact ⟨e, he, hkind.trans (hinside.kind_of_mem_list hdecl hrefs hy hmade.declared), hstatic⟩

/-- What the intake has made is in order. -/
theorem Intake.Accounts.inOrder {i : Intake} (h : i.Accounts unit settings unit.topLevel)
    (hcontained : Assembly.Contained unit [] i.assembly) (hinside : unit.MembersInside) :
    i.assembly.graph.InOrder i.made {x | ∃ d, i.assembly.answer? d = some (.ok x)} where
  outside x hx := by
    have hholds := h.holds fun _ hd => (SourceUnit.mem_topLevel_iff.mp hd).1
    obtain ⟨d, hd, e, he, hof⟩ := hholds.exists_left hx
    have htop := (SourceUnit.mem_topLevel_iff.mp (List.mem_filter.mp hd).1).2
    refine ⟨e, he, fun k hkind => ?_⟩
    have hshape := hof.kind.symm.trans hkind
    cases hdecl : d.2.shape with
    | method | property =>
      rw [hdecl] at htop
      cases htop
    | _ =>
      rw [hdecl] at hshape
      cases k <;> cases hshape
  subset x hx := by
    obtain ⟨d, -, hd⟩ := h.made.exists_left hx
    exact ⟨d.1, hd⟩
  arranged x hx m hm := by
    obtain ⟨d, hd⟩ := hx
    exact hcontained.arranges h.sound hinside hd hm

/-! ### The finished graph -/

/-- The passes keep what the intake has made in order. -/
theorem Intake.inOrder_finish {i : Intake} (h : i.Accounts unit settings unit.topLevel)
    (hcontained : Assembly.Contained unit [] i.assembly) (hinside : unit.MembersInside) :
    (Bridged.ofDraft i.draft.finish).graph.InOrder i.made
      {x | ∃ d, i.assembly.answer? d = some (.ok x)} :=
  (h.inOrder hcontained hinside).rearranged (Draft.rearranged_finish i.draft)

/-- **Lists of members.** If members exist only inside of containers, then the lists of every
container that is presented hold the members that fit there and nothing else, sorted by name. -/
theorem members_arranged (unit : SourceUnit) (settings : Settings) (h : unit.MembersInside)
    {x : EntityId} {e : Entity} {m : Members}
    (he : (x, e) ∈ (unit.bridge settings).dump.entities) (hm : e.members? = some m) :
    (unit.bridge settings).graph.Arranges m := by
  obtain ⟨done, hsound⟩ := Intake.sound_run unit settings
  obtain ⟨d, decl, e₀, hmade⟩ := hsound.made_of_members he hm
  have hinOrder : (unit.bridge settings).graph.InOrder (Intake.run unit settings).made
      {x | ∃ d, (Intake.run unit settings).assembly.answer? d = some (.ok x)} :=
    Intake.inOrder_finish (Intake.accounts_foldl unit settings unit.topLevel)
      (Intake.contained_run unit settings) h
  have hmembers : (unit.bridge settings).graph.members? x = some m :=
    Graph.members?_eq_some_iff.mpr ⟨e, (Graph.mem_dump_entities.mp he).1, hm⟩
  exact hinOrder.arranged x ⟨d, hmade.answer⟩ m hmembers

/-! ### A class with members -/

namespace SourceUnit

/-- A class with two methods, a method of the class itself, and a property around the first. -/
def numberSet : SourceUnit where
  declarations := #[plainDeclaration "Set" (.interface none ⟨[], [⟨1⟩, ⟨2⟩, ⟨3⟩], [⟨4⟩]⟩ []),
    plainDeclaration "max" (.method ⟨⟨0⟩, [], false⟩ false false false),
    plainDeclaration "Add" (.method ⟨⟨0⟩, [], false⟩ false false false),
    plainDeclaration "all" (.method ⟨⟨0⟩, [], false⟩ true false false),
    plainDeclaration "max" (.property (some ⟨1⟩) none false false)]
  types := #[.primitive .void]

/-- The unit has five declarations. -/
theorem declared_numberSet {d : DeclRef} {decl : Declaration}
    (h : numberSet.declaration? d = some decl) :
    d = ⟨0⟩ ∨ d = ⟨1⟩ ∨ d = ⟨2⟩ ∨ d = ⟨3⟩ ∨ d = ⟨4⟩ := by
  have hmem : d ∈ [(⟨0⟩ : DeclRef), ⟨1⟩, ⟨2⟩, ⟨3⟩, ⟨4⟩] := mem_declRefs h
  simpa only [List.mem_cons, List.not_mem_nil, or_false] using hmem

/-- The class is the one container. -/
theorem container_numberSet {c : DeclRef} {decl : Declaration} {refs : MemberRefs}
    (h : numberSet.declaration? c = some decl) (hrefs : decl.shape.members? = some refs) :
    c = ⟨0⟩ ∧ decl.shape = .interface none refs [] ∧
      refs = ⟨[], [⟨1⟩, ⟨2⟩, ⟨3⟩], [⟨4⟩]⟩ := by
  rcases declared_numberSet h with rfl | rfl | rfl | rfl | rfl <;> cases h <;> cases hrefs
  exact ⟨rfl, rfl, rfl⟩

/-- The members of the only container are declared once, inside of it. -/
theorem membersInside_numberSet : numberSet.MembersInside where
  methods {c decl refs d member} hdecl hrefs hd hmember := by
    obtain ⟨-, -, rfl⟩ := container_numberSet hdecl hrefs
    simp only [List.mem_cons, List.not_mem_nil, or_false] at hd
    rcases hd with rfl | rfl | rfl <;> cases hmember <;> rfl
  properties {c decl refs d member} hdecl hrefs hd hmember := by
    obtain ⟨-, -, rfl⟩ := container_numberSet hdecl hrefs
    obtain rfl := List.mem_singleton.mp hd
    cases hmember
    rfl
  once {c c' d} _ hlists hlists' := by
    obtain ⟨decl, refs, hdecl, hrefs, -⟩ := hlists
    obtain ⟨decl', refs', hdecl', hrefs', -⟩ := hlists'
    rw [(container_numberSet hdecl hrefs).1, (container_numberSet hdecl' hrefs').1]
  accessors {p decl getter setter isStatic isOptional d c} hdecl hshape _ hlists := by
    obtain ⟨decl', refs, hdecl', hrefs, -⟩ := hlists
    obtain ⟨rfl, -, rfl⟩ := container_numberSet hdecl' hrefs
    refine ⟨decl', _, hdecl', hrefs, ?_⟩
    rcases declared_numberSet hdecl with rfl | rfl | rfl | rfl | rfl <;> cases hdecl <;>
      cases hshape
    decide
  inside {d} hmember hnamed := by
    cases hnamed with
    | superclass declared shape =>
      obtain ⟨-, hshape, -⟩ := container_numberSet declared (by rw [shape]; rfl)
      cases shape.symm.trans hshape
    | extended declared shape =>
      obtain ⟨-, hshape, -⟩ := container_numberSet declared (by rw [shape]; rfl)
      cases shape.symm.trans hshape
    | protocol declared container mem =>
      obtain ⟨-, -, rfl⟩ := container_numberSet declared container
      cases mem
    | @type t node found mem =>
      have ht : t ∈ [(⟨0⟩ : TypeRef)] := mem_typeRefs found
      obtain rfl := List.mem_singleton.mp ht
      cases found
      cases mem

end SourceUnit

/-- What is dumped: the methods are sorted by their names, and the static one is apart. -/
theorem dump_numberSet :
    ((SourceUnit.numberSet.bridge .default).dump.entities.map fun entry =>
      (entry.1, entry.2.members?)) =
        [(⟨0⟩, some ⟨[⟨2⟩, ⟨1⟩], [⟨3⟩], [⟨4⟩], [], []⟩), (⟨1⟩, none), (⟨2⟩, none), (⟨3⟩, none),
          (⟨4⟩, none)] := by
  cbv

/-- The members of the class are arranged, `Add` before `max`. -/
theorem members_arranged_numberSet : SourceUnit.numberSet.MembersInside ∧ ∃ e,
    (⟨0⟩, e) ∈ (SourceUnit.numberSet.bridge .default).dump.entities ∧
      e.members? = some ⟨[⟨2⟩, ⟨1⟩], [⟨3⟩], [⟨4⟩], [], []⟩ ∧
        (SourceUnit.numberSet.bridge .default).graph.Arranges
          ⟨[⟨2⟩, ⟨1⟩], [⟨3⟩], [⟨4⟩], [], []⟩ := by
  have hmem : (⟨0⟩, some ⟨[⟨2⟩, ⟨1⟩], [⟨3⟩], [⟨4⟩], [], []⟩) ∈
      (SourceUnit.numberSet.bridge .default).dump.entities.map fun entry =>
        (entry.1, entry.2.members?) := by
    rw [dump_numberSet]
    exact List.mem_cons_self
  obtain ⟨⟨x, e⟩, he, hentry⟩ := List.mem_map.mp hmem
  obtain ⟨rfl, hm⟩ := Prod.mk.inj hentry
  exact ⟨SourceUnit.membersInside_numberSet, e, he, hm,
    members_arranged SourceUnit.numberSet .default SourceUnit.membersInside_numberSet he hm⟩

end InteropGraph
