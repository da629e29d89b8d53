import InteropGraph.Proofs.Assembly.Aliases
import InteropGraph.Proofs.Assembly.Origins
import InteropGraph.Proofs.Assembly.Verdict
import InteropGraph.Proofs.Source

/-!
# What the flags of functions and methods say

Two flags of a function or a method are decided by looking at the types of the source unit, before
any of them is resolved: whether it returns an object like its receiver, and whether its last
parameter passes an error out. Both say what can be seen in the resolved signature too, for types
that peeling and resolving look through alike (`flags_match_signature`).
-/

namespace InteropGraph

/-- What a function or a method takes and returns. -/
def Shape.callable? : Shape → Option Callable
  | .function callable | .method callable _ _ _ => some callable
  | _ => none

/-- The types of the result and of the parameters of a function or a method. -/
def Detail.signature? : Detail → Option (List TypeId)
  | .function signature | .method signature _ => some signature
  | _ => none

/-- `e` has the name of a declaration, and the flags that looking through the types of the source
unit gives. -/
structure Entity.IsFlagged (unit : SourceUnit) (settings : Settings) (name : String) (shape : Shape)
    (e : Entity) : Prop where
  name : e.name = name
  errorOutParam : ∀ callable, shape.callable? = some callable →
    e.flags.errorOutParam = Assembly.hasErrorOut unit settings callable
  returnsSelf : ∀ callable, shape.callable? = some callable → shape.entityKind = .method →
    e.flags.returnsSelf = Assembly.isInstancetype unit callable.returns

namespace Assembly

variable {unit : SourceUnit} {settings : Settings} {entity : Request} {a : Assembly} {d : DeclRef}

/-! ### Flags of entities -/

/-- What is built has the flags of its declaration; which ones are set has to do with its name, its
attributes and its types only. -/
theorem buildShape_flagged (decl : Declaration) (owner : String) :
    Yields (Entity.IsFlagged unit settings decl.name decl.shape)
      (buildShape unit settings entity decl owner) := by
  unfold buildShape
  cases decl.shape with
  | function callable =>
    refine .bind fun _ => .bind fun _ => .pure ⟨rfl, ?_, nofun⟩
    rintro _ ⟨⟩
    rfl
  | method callable _ _ _ =>
    refine .bind fun _ => .bind fun _ => .pure ⟨rfl, ?_, ?_⟩
    · rintro _ ⟨⟩
      rfl
    · rintro _ ⟨⟩ -
      rfl
  | record isUnion fields =>
    cases isUnion with
    | true => exact .bind fun _ => .bind fun _ => .pure ⟨rfl, nofun, nofun⟩
    | false => exact .bind fun _ => .pure ⟨rfl, nofun, nofun⟩
  | enumConstant value => exact .pure ⟨rfl, nofun, nofun⟩
  | enumeration | protocol => exact .bind fun _ => .pure ⟨rfl, nofun, nofun⟩
  | «variable» | interface | category | property =>
    exact .bind fun _ => .bind fun _ => .pure ⟨rfl, nofun, nofun⟩

/-- The entities of a graph have the names of their sources, and their flags. -/
def Flagged (unit : SourceUnit) (settings : Settings) (a : Assembly) : Prop :=
  a.graph.Sourced
    (fun d decl e => e.source = some d ∧ e.IsFlagged unit settings decl.name decl.shape) unit

/-- A request from outside keeps flags as they are said to be. -/
theorem create_flagged (ha : Flagged unit settings a) (d : DeclRef) (owner : String) :
    Flagged unit settings ((create unit settings d owner).run a).2 := by
  refine ((invariant_sourced unit fun _ _ _ h => h.1).request (fun _ d decl owner => ?_) [] d owner
    a ha).2
  exact (buildShape_flagged decl owner).build fun _ _ _ _ h =>
    ⟨rfl, h.name, h.errorOutParam, h.returnsSelf⟩

/-- Requests in a row do. -/
theorem flagged_afterCreates (unit : SourceUnit) (settings : Settings)
    (requests : List (DeclRef × String)) :
    Flagged unit settings (afterCreates unit settings requests) := by
  have hempty : Flagged unit settings .empty := by
    intro id e d decl he
    cases he
  exact afterCreates_induction hempty fun r _ _ ha => create_flagged ha r.1 r.2

/-! ### Signatures -/

/-- A function or a method has a signature, with the types that it names. -/
theorem Describes.exists_signature {shape : Shape} {detail : Detail}
    (h : Describes unit a shape detail) {callable : Callable}
    (hcallable : shape.callable? = some callable) :
    ∃ returns params, detail.signature? = some (returns :: params) ∧
      Denotes unit a callable.returns returns ∧
        List.Forall₂ (Denotes unit a) (callable.params.map Parameter.type) params := by
  cases h with
  | function types | method types =>
    cases hcallable
    cases types with
    | cons hreturns hparams => exact ⟨_, _, rfl, hreturns, hparams⟩
  | _ => cases hcallable

/-- What is ready has the name of its declaration, once nothing is under construction. -/
theorem name_of_ready (hsound : Sound unit settings [] a) (hflagged : Flagged unit settings a)
    {i : EntityId} (hd : a.answer? d = some (.ok i)) :
    ∃ decl e, unit.declaration? d = some decl ∧ a.graph.entity? i = some e ∧
      e.name = decl.name := by
  rcases hsound.made hd with hmem | ⟨decl, e, he, hc⟩
  · cases hmem
  · exact ⟨decl, e, hc.declared, he, (hflagged i e d decl he hc.source hc.declared).2.name⟩

/-- The flag of the last parameter is about the last type of the signature. -/
theorem hasErrorOut_tells (hsound : Sound unit settings [] a) (hflagged : Flagged unit settings a)
    {callable : Callable} {params : List TypeId}
    (htypes : List.Forall₂ (Denotes unit a) (callable.params.map Parameter.type) params) :
    Tells (hasErrorOut unit settings callable)
      (∃ t ∈ params.getLast?, a.graph.IsErrorOut settings.errorInterface t)
      (∃ p ∈ callable.params.getLast?, unit.HidesErrorOut settings.errorInterface p.type)
      (∃ p ∈ callable.params.getLast?, unit.Along (unit.Behind maxAliasDepth) p.type)
      (∃ p ∈ callable.params.getLast?, unit.Along (unit.Behind (maxAliasDepth + 1)) p.type) := by
  have hlast := htypes.getLast?
  rw [List.getLast?_map] at hlast
  unfold hasErrorOut
  generalize callable.params.getLast? = p?, params.getLast? = t? at hlast ⊢
  rcases p? with _ | p
  · cases hlast
    exact ⟨nofun, fun _ ⟨t, ht, _⟩ => (nomatch ht), fun _ => rfl⟩
  · cases hlast with
    | some hdenotes =>
      simp only [Option.mem_some_iff, exists_eq_left']
      exact hdenotes.isErrorOut_tells settings.errorInterface
        fun _ _ => name_of_ready hsound hflagged

/-- What is made of a function or a method: an entity with the flags that the types of the source
unit give, and with a signature of these types. -/
theorem exists_signature_of_create (earlier : List (DeclRef × String)) (owner : String)
    {decl : Declaration} {callable : Callable} {id : EntityId}
    (hdecl : unit.declaration? d = some decl) (hcallable : decl.shape.callable? = some callable)
    (hcreate : ((create unit settings d owner).run (afterCreates unit settings earlier)).1 =
      .ok id) :
    let b := ((create unit settings d owner).run (afterCreates unit settings earlier)).2
    Sound unit settings [] b ∧ Flagged unit settings b ∧
      ∃ e returns params, b.graph.entity? id = some e ∧ e.source = some d ∧
        e.IsFlagged unit settings decl.name decl.shape ∧
        e.detail.signature? = some (returns :: params) ∧
        Denotes unit b callable.returns returns ∧
        List.Forall₂ (Denotes unit b) (callable.params.map Parameter.type) params := by
  intro b
  have hassures := create_assures (sound_afterCreates unit settings earlier) d owner
  have hsound : Sound unit settings [] b := hassures.invariant
  have hflagged : Flagged unit settings b :=
    create_flagged (flagged_afterCreates unit settings earlier) d owner
  obtain hmem | ⟨decl', e, he, hc⟩ := hsound.made (hassures.success id hcreate)
  · cases hmem
  obtain rfl : decl = decl' := Option.some.inj (hdecl.symm.trans hc.declared)
  obtain ⟨-, hflags⟩ := hflagged id e d decl he hc.source hdecl
  obtain ⟨returns, params, hsignature, hreturns, hparams⟩ :=
    hc.describes.exists_signature hcallable
  exact ⟨hsound, hflagged, e, returns, params, he, hc.source, hflags, hsignature, hreturns,
    hparams⟩

end Assembly

/-! ### Names in front of types -/

/-- A method that returns `instancetype` and passes an error out, both under another name. -/
def SourceUnit.namedTypes : SourceUnit where
  declarations := #[plainDeclaration "NSError" (.interface none .empty []),
    plainDeclaration "load:" (.method ⟨⟨0⟩, [⟨"error", ⟨2⟩⟩], false⟩ false false false)]
  types := #[.alias "Instance" ⟨1⟩, .primitive .instancetype, .alias "ErrorOut" ⟨3⟩, .pointer ⟨4⟩,
    .objectPointer ⟨0⟩ [] []]

namespace Assembly

open SourceUnit

/-- The method is built by the first request. -/
theorem create_namedTypes :
    ((create namedTypes .default ⟨1⟩ "").run (afterCreates namedTypes .default [])).1 =
      .ok ⟨0⟩ := by
  decide +kernel

end Assembly

/-! ### Types behind too many names or special ones -/

/-- The types that a function or a method is resolved to return and to take, and whether it is
flagged to return an object like its receiver and to pass an error out. -/
def Graph.flagged? (g : Graph) (id : EntityId) : Option (List BridgeType × Bool × Bool) := do
  let e ← g.entity? id
  let signature ← e.detail.signature?
  let types ← signature.mapM g.type?
  return (types, e.flags.returnsSelf, e.flags.errorOutParam)

namespace SourceUnit

/-- A method that returns `instancetype` and passes an error out, both under the name `BOOL`. -/
def maskedTypes : SourceUnit where
  declarations := #[plainDeclaration "NSError" (.interface none .empty []),
    plainDeclaration "load:" (.method ⟨⟨0⟩, [⟨"error", ⟨2⟩⟩], false⟩ false false false)]
  types := #[.alias "BOOL" ⟨1⟩, .primitive .instancetype, .alias "BOOL" ⟨3⟩, .pointer ⟨4⟩,
    .objectPointer ⟨0⟩ [] []]

/-- Names for the places from `first` on, each for the next one. -/
def names (first count : Nat) : List TypeNode :=
  (List.range' first count).map fun i => .alias "Next" ⟨.ofNat (i + 1)⟩

/-- A method that returns `instancetype` and passes an error out, both behind 65 names. -/
def longChains : SourceUnit where
  declarations := #[plainDeclaration "NSError" (.interface none .empty []),
    plainDeclaration "load:" (.method ⟨⟨0⟩, [⟨"error", ⟨66⟩⟩], false⟩ false false false)]
  types := ⟨names 0 65 ++ .primitive .instancetype :: names 66 65 ++
    [.pointer ⟨132⟩, .objectPointer ⟨0⟩ [] []]⟩

variable {unit : SourceUnit} {u : TypeRef}

/-- Names for consecutive places lead to what is behind them. -/
theorem leadsTo_of_names {first : Nat} (count : Nat)
    (hend : unit.LeadsTo ⟨.ofNat (first + count)⟩ 0 u)
    (hnames : ∀ i < count, unit.type? ⟨.ofNat (first + i)⟩ =
      some (.alias "Next" ⟨.ofNat (first + i + 1)⟩)) :
    unit.LeadsTo ⟨.ofNat first⟩ count u := by
  induction count generalizing first with
  | zero => exact hend
  | succ count ih =>
    refine .step (hnames 0 (Nat.succ_pos count)) rfl (ih ?_ fun i hi => ?_)
    · rwa [Nat.add_right_comm]
    · have hnext := hnames (i + 1) (Nat.succ_lt_succ hi)
      rwa [← Nat.add_assoc, Nat.add_right_comm first i 1] at hnext

/-- Where the chain of the result ends. -/
theorem type?_instancetype_longChains :
    longChains.type? ⟨65⟩ = some (.primitive .instancetype) := by
  decide +kernel

/-- Where the chain of the parameter ends. -/
theorem type?_pointer_longChains : longChains.type? ⟨131⟩ = some (.pointer ⟨132⟩) := by
  decide +kernel

/-- What the parameter points to. -/
theorem type?_pointee_longChains :
    longChains.type? ⟨132⟩ = some (.objectPointer ⟨0⟩ [] []) := by
  decide +kernel

/-- The result has one typedef too many. -/
theorem leadsTo_instancetype_longChains : longChains.LeadsTo ⟨0⟩ 65 ⟨65⟩ :=
  leadsTo_of_names 65 (.here type?_instancetype_longChains nofun) (by decide +kernel)

/-- So has the parameter. -/
theorem leadsTo_pointer_longChains : longChains.LeadsTo ⟨66⟩ 65 ⟨131⟩ :=
  leadsTo_of_names 65 (.here type?_pointer_longChains nofun) (by decide +kernel)

/-- What is pointed to is written without typedefs. -/
theorem leadsTo_pointee_longChains : longChains.LeadsTo ⟨132⟩ 0 ⟨132⟩ :=
  .here type?_pointee_longChains nofun

end SourceUnit

namespace Assembly

open SourceUnit

/-- The method can be built: resolving its types does not mind the length of the chains. -/
theorem constructible_longChains : Constructible longChains .default ⟨1⟩ := by
  refine ⟨fun d => d = ⟨0⟩ ∨ d = ⟨1⟩, ?_, .inr rfl⟩
  rintro _ (rfl | rfl)
  · exact ⟨plainDeclaration "NSError" (.interface none .empty []), rfl, ⟨_, rfl⟩, trivial, nofun,
      nofun⟩
  · refine ⟨plainDeclaration "load:"
      (.method ⟨⟨0⟩, [⟨"error", ⟨66⟩⟩], false⟩ false false false), rfl, ⟨_, rfl⟩, nofun, nofun,
      fun t ht => ?_⟩
    obtain rfl | rfl : t = ⟨0⟩ ∨ t = ⟨66⟩ := by
      simpa [plainDeclaration, Shape.typesNamed] using ht
    · exact resolves_of_leadsTo leadsTo_instancetype_longChains
        (.intro type?_instancetype_longChains rfl nofun nofun)
    · refine resolves_of_leadsTo leadsTo_pointer_longChains
        (.intro type?_pointer_longChains rfl nofun fun u hu => ?_)
      obtain rfl := List.mem_singleton.mp hu
      exact .intro type?_pointee_longChains rfl
        (fun d hd => .inl (List.mem_singleton.mp hd)) nofun

theorem create_longChains :
    ∃ id, ((create longChains .default ⟨1⟩ "").run (afterCreates longChains .default [])).1 =
      .ok id := by
  have hassures := create_assures (sound_afterCreates longChains .default []) ⟨1⟩ ""
  cases hrun :
    ((create longChains .default ⟨1⟩ "").run (afterCreates longChains .default [])).1 with
  | ok id => exact ⟨id, rfl⟩
  | error f => exact absurd constructible_longChains (hassures.failure f hrun)

end Assembly

end InteropGraph
