import InteropGraph.Proofs.Assembly.Blame
import InteropGraph.Proofs.Assembly.Lockstep

/-!
# Discharging demands

While the demands of a construction are answered they pass, and the first one that is not answered
is what the construction fails at (`Discharges`). An answer may be trusted so far because whatever
is ready is promised by what is under construction (`Sound.promised`), and a request is only made
behind demands that pass, which is what is known of the constructions that it leads to
(`Underway.told`).
-/

namespace InteropGraph.Assembly

variable {α β : Type} {unit : SourceUnit} {settings : Settings} {roots active : List DeclRef}
  {entity : Request} {a b : Assembly} {d e : DeclRef}

/-- What is ready has been promised. -/
theorem Sound.promised (ha : Sound unit settings active a) (hd : Ready a d) :
    Promised unit settings active d := by
  refine ⟨Ready a, ?_, hd⟩
  rintro x ⟨id, hid⟩
  refine (ha.made hid).imp_right fun ⟨decl, _, _, hcomplete⟩ => ?_
  exact ⟨decl, hcomplete.declared, hcomplete.admissible⟩

/-- The assembly is sound, and every failure that is remembered goes back to a check. -/
structure Truthful (unit : SourceUnit) (settings : Settings) (roots active : List DeclRef)
    (a : Assembly) : Prop where
  sound : Sound unit settings active a
  told : ∀ {x f}, a.answer? x = some (.error f) → Blames unit settings roots a x f

/-- What is known of failures depends on nothing but the answers. -/
theorem Truthful.of_answer {inside : List DeclRef} (ha : Truthful unit settings roots inside a)
    (hb : Sound unit settings active b) (hab : ∀ x, b.answer? x = a.answer? x) :
    Truthful unit settings roots active b where
  sound := hb
  told {x _} hx := (ha.told ((hab x).symm.trans hx)).mono fun y _ hy => (hab y).trans hy

/-! ### Meeting demands -/

/-- The step `m` passes the demands one after the other, or fails at one of them. -/
structure Meets (unit : SourceUnit) (settings : Settings) (roots active : List DeclRef)
    (m : Assemble α) (a : Assembly) (zs : List Demand) : Prop where
  truthful : Truthful unit settings roots active (m.run a).2
  success : ∀ v, (m.run a).1 = .ok v → ∀ z ∈ zs, Passes unit settings active z
  failure : ∀ f, (m.run a).1 = .error f → ∃ z, Reaches (Passes unit settings active) zs z ∧
    Causes unit settings roots (m.run a).2 f z

namespace Meets

variable {m : Assemble α} {zs : List Demand}

/-- A step that succeeds has passed all that it meets. -/
theorem of_run_ok {v : α} (hrun : m.run a = (.ok v, b))
    (hb : Truthful unit settings roots active b) (hpass : ∀ z ∈ zs, Passes unit settings active z) :
    Meets unit settings roots active m a zs := by
  refine ⟨?_, ?_, ?_⟩ <;> rw [hrun]
  · exact hb
  · exact fun _ _ => hpass
  · exact nofun

/-- A step that succeeds meets what demands nothing. -/
theorem of_run_ok_nil {v : α} (hrun : m.run a = (.ok v, b))
    (hb : Truthful unit settings roots active b) : Meets unit settings roots active m a [] :=
  .of_run_ok hrun hb fun _ hz => absurd hz List.not_mem_nil

/-- A step that fails has reached the demand that is the cause of its failure. -/
theorem of_run_error {f : Failure} {z : Demand} (hrun : m.run a = (.error f, b))
    (hb : Truthful unit settings roots active b)
    (hreached : Reaches (Passes unit settings active) zs z)
    (hcause : Causes unit settings roots b f z) : Meets unit settings roots active m a zs := by
  refine ⟨?_, ?_, ?_⟩ <;> rw [hrun]
  · exact hb
  · exact nofun
  · rintro _ ⟨⟩
    exact ⟨z, hreached, hcause⟩

/-- A step that does what another one does meets the same. -/
theorem of_run {m' : Assemble α} (hrun : m.run a = m'.run a)
    (h : Meets unit settings roots active m' a zs) : Meets unit settings roots active m a zs := by
  refine ⟨?_, ?_, ?_⟩ <;> rw [hrun]
  · exact h.truthful
  · exact h.success
  · exact h.failure

/-- A step that never fails meets what always passes. -/
theorem of_agrees (h : Agrees (Truthful unit settings roots active) α m m)
    (ha : Truthful unit settings roots active a) (hok : ∀ f, (m.run a).1 ≠ .error f)
    (hpass : ∀ z ∈ zs, Passes unit settings active z) :
    Meets unit settings roots active m a zs where
  truthful := (h a ha).2
  success _ _ := hpass
  failure f hf := absurd hf (hok f)

end Meets

/-! ### Discharging demands -/

/-- The demands `zs` are reached by the construction of `e`, on top of `active`. -/
def Comes (unit : SourceUnit) (settings : Settings) (active : List DeclRef) (e : DeclRef)
    (zs : List Demand) : Prop :=
  ∀ z, Reaches (Passes unit settings active) zs z →
    Reaches (Passes unit settings active) (demands unit settings e) z

/-- The step `m` of the construction of `e` meets the demands if the construction comes to them. -/
def Discharges (unit : SourceUnit) (settings : Settings) (roots active : List DeclRef) (e : DeclRef)
    (m : Assemble α) (a : Assembly) (zs : List Demand) : Prop :=
  Comes unit settings active e zs → Meets unit settings roots active m a zs

namespace Discharges

variable {m : Assemble α} {zs ws : List Demand}

theorem pure (ha : Truthful unit settings roots active a) (v : α) :
    Discharges unit settings roots active e (pure v : Assemble α) a [] :=
  fun _ => .of_run_ok_nil (run_pure v a) ha

/-- A check discharges the demand that it is. -/
theorem ofExcept (ha : Truthful unit settings roots active a) (r : Except Failure α) :
    Discharges unit settings roots active e (ofExcept r) a (Demand.ofCheck r) := by
  cases r with
  | ok v => exact pure ha v
  | error f => exact fun _ => .of_run_error (run_throw f a) ha .head (.refl f)

theorem currentGraph (ha : Truthful unit settings roots active a) :
    Discharges unit settings roots active e currentGraph a [] :=
  fun _ => .of_run_ok_nil (run_currentGraph a) ha

/-- The demands of two steps stand in the order of the steps. -/
theorem bind {k : α → Assemble β} (hm : Discharges unit settings roots active e m a zs)
    (hk : ∀ v b, m.run a = (.ok v, b) → Truthful unit settings roots active b →
      Discharges unit settings roots active e (k v) b ws) :
    Discharges unit settings roots active e (m >>= k) a (zs ++ ws) := by
  intro hcomes
  obtain ⟨htruthful, hok, herror⟩ := hm fun z hz => hcomes z (hz.append_left ws)
  rcases hrun : m.run a with ⟨f | v, b⟩
  · rw [hrun] at htruthful herror
    obtain ⟨z, hreached, hcause⟩ := herror f rfl
    exact .of_run_error (by rw [run_bind, hrun]) htruthful (hreached.append_left ws) hcause
  · rw [hrun] at htruthful hok
    have hpass := hok v rfl
    obtain ⟨htruthful', hok', herror'⟩ :=
      hk v b hrun htruthful fun z hz => hcomes z (hz.append_right hpass)
    have hrest : (m >>= k).run a = (k v).run b := by rw [run_bind, hrun]
    refine ⟨?_, ?_, ?_⟩ <;> rw [hrest]
    · exact htruthful'
    · exact fun w hw z hz => (List.mem_append.mp hz).elim (hpass z) (hok' w hw z)
    · intro f hf
      obtain ⟨z, hreached, hcause⟩ := herror' f hf
      exact ⟨z, hreached.append_right hpass, hcause⟩

/-- The rest demands nothing. -/
theorem andThen {k : α → Assemble β} (hm : Discharges unit settings roots active e m a zs)
    (hk : ∀ v b, m.run a = (.ok v, b) → Truthful unit settings roots active b →
      Discharges unit settings roots active e (k v) b []) :
    Discharges unit settings roots active e (m >>= k) a zs := by
  have h := hm.bind hk
  rwa [List.append_nil] at h

theorem append_nil (h : Discharges unit settings roots active e m a zs) :
    Discharges unit settings roots active e m a (zs ++ []) := by
  rwa [List.append_nil]

/-- A failure comes from what it is wrapped around. -/
theorem dependingOn (h : Discharges unit settings roots active e m a zs) (name : String) :
    Discharges unit settings roots active e (dependingOn name m) a zs := by
  intro hcomes
  obtain ⟨htruthful, hok, herror⟩ := h hcomes
  rcases hrun : m.run a with ⟨f | v, b⟩
  · rw [hrun] at htruthful herror
    obtain ⟨z, hreached, hcause⟩ := herror f rfl
    refine .of_run_error (f := .dependency name f) ?_ htruthful hreached (hcause.dependency name)
    rw [run_dependingOn, hrun]
    rfl
  · rw [hrun] at htruthful hok
    refine .of_run_ok (v := v) ?_ htruthful (hok v rfl)
    rw [run_dependingOn, hrun]
    rfl

/-- The demands of a loop stand in the order of its list. -/
theorem mapM {f : α → Assemble β} {demanded : α → List Demand} {l : List α}
    (hf : ∀ x ∈ l, ∀ b, Truthful unit settings roots active b →
      Discharges unit settings roots active e (f x) b (demanded x))
    (ha : Truthful unit settings roots active a) :
    Discharges unit settings roots active e (l.mapM f) a (l.flatMap demanded) := by
  induction l generalizing a with
  | nil => exact pure ha []
  | cons x l ih =>
    rw [List.mapM_cons, List.flatMap_cons]
    refine (hf x List.mem_cons_self a ha).bind fun v b _ hb => ?_
    refine (ih (fun y hy => hf y (List.mem_cons_of_mem x hy)) hb).andThen fun vs c _ hc => ?_
    exact pure hc _

end Discharges

/-! ### Requests of a construction -/

/-- `e` is under construction, on top of `active`. What its construction comes to request is made as
far as it can be made, and otherwise blamed. -/
structure Underway (unit : SourceUnit) (settings : Settings) (roots active : List DeclRef)
    (e : DeclRef) (entity : Request) : Prop where
  assured : EntityAssured unit settings active entity
  told : ∀ x owner, ComesTo unit settings active e x →
    ∀ a, Truthful unit settings roots active a →
      Truthful unit settings roots active ((entity x owner).run a).2 ∧
        ∀ f, ((entity x owner).run a).1 = .error f →
          Blames unit settings roots ((entity x owner).run a).2 x f

namespace Underway

variable (h : Underway unit settings roots active e entity)
include h

/-- The failure of a request is wrapped with the name of what was requested. -/
theorem dependency_discharges (x : DeclRef) (owner : String)
    (ha : Truthful unit settings roots active a) :
    Discharges unit settings roots active e (dependency unit entity x owner) a [.entity x] := by
  intro hcomes
  obtain ⟨htruthful, herror⟩ := h.told x owner ⟨.entity x, hcomes _ .head, rfl⟩ a ha
  have hassured := h.assured x owner a ha.sound
  rcases hrun : (entity x owner).run a with ⟨f | id, b⟩
  · rw [hrun] at htruthful herror
    refine .of_run_error (f := .dependency (describe unit x) f) ?_ htruthful .head
      ⟨f, .refl _, herror f rfl⟩
    rw [dependency, run_dependingOn, hrun]
    rfl
  · have hready := hassured.success id
    rw [hrun] at htruthful hready
    refine .of_run_ok (v := id) ?_ htruthful fun z hz => ?_
    · rw [dependency, run_dependingOn, hrun]
      rfl
    · obtain rfl := List.mem_singleton.mp hz
      exact htruthful.sound.promised ⟨id, hready rfl⟩

/-- Requests for what may be left out keep the memory truthful. -/
theorem requests {refs : List DeclRef}
    (hcomes : Comes unit settings active e (refs.map .optional)) :
    RequestsRelated (Agrees (Truthful unit settings roots active)) entity entity refs := by
  intro x hx owner a ha
  have hreached := hcomes _ (.of_mem (Demand.met_optional _ refs) (List.mem_map_of_mem hx))
  exact ⟨rfl, (h.told x owner ⟨.optional x, hreached, rfl⟩ a ha).1⟩

/-! ### Types -/

/-- Protocols of a type are asked for, but may fail. -/
theorem qualifiers_discharges (protocols : List DeclRef)
    (ha : Truthful unit settings roots active a) :
    Discharges unit settings roots active e (qualifiers entity protocols) a
      (protocols.map .optional) := by
  intro hcomes
  refine .of_agrees ((Agrees.composes _).qualifiers (h.requests hcomes)) ha (fun f hf => ?_)
    (Demand.met_optional _ protocols)
  exact (qualifiers_assures (E := False) h.assured ha.sound protocols).failure f hf

omit h in
/-- A type name demands what it is defined as, unless it stands for a type of its own. -/
theorem alias_discharges {name : String} {underlying : TypeRef}
    {type : TypeRef → Assemble TypeId} {demanded : TypeRef → List Demand}
    (hassured : ∀ u ∈ (TypeNode.alias name underlying).parts,
      TypeAssured unit settings active u (type u))
    (htype : ∀ u ∈ (TypeNode.alias name underlying).parts, ∀ b,
      Truthful unit settings roots active b →
        Discharges unit settings roots active e (type u) b (demanded u))
    (ha : Truthful unit settings roots active a) :
    Discharges unit settings roots active e (convert unit entity type (.alias name underlying)) a
      ((TypeNode.alias name underlying).parts.flatMap demanded) := by
  rw [convert]
  cases hname : namedType? name with
  | some s =>
    rw [parts_alias_of_some hname]
    exact .pure ha _
  | none =>
    rw [parts_alias_of_none hname] at hassured htype ⊢
    refine (htype underlying List.mem_cons_self a ha).bind fun id b hrun hb => ?_
    refine (Discharges.currentGraph hb).andThen fun g c hcurrent hc => ?_
    cases hcurrent
    -- the place of the underlying type is not vacant
    have hplace := (hassured underlying List.mem_cons_self a ha.sound).success id
    rw [hrun] at hplace
    obtain ⟨type', htype'⟩ := (hplace rfl).exists_type
    rw [htype']
    exact .pure hb _

/-- A conversion demands what the type demands by itself and through its parts. -/
theorem convert_discharges {node : TypeNode} {type : TypeRef → Assemble TypeId}
    {demanded : TypeRef → List Demand}
    (hassured : ∀ u ∈ node.parts, TypeAssured unit settings active u (type u))
    (htype : ∀ u ∈ node.parts, ∀ b, Truthful unit settings roots active b →
      Discharges unit settings roots active e (type u) b (demanded u))
    (ha : Truthful unit settings roots active a) :
    Discharges unit settings roots active e (convert unit entity type node) a
      (typeChecks node ++ ((node.dependencies unit).map .entity ++
        (node.parts.flatMap demanded ++ node.protocols.map .optional))) := by
  cases node with
  | primitive p =>
    exact (Discharges.ofExcept ha (ofPrimitive p)).bind fun s b _ hb => .pure hb _
  | object protocols =>
    exact (h.qualifiers_discharges protocols ha).andThen fun ids b _ hb => .pure hb _
  | objectPointer interface protocols arguments =>
    refine (h.dependency_discharges interface "" ha).bind fun i b _ hb => ?_
    refine (Discharges.mapM htype hb).bind fun parts c _ hc => ?_
    refine (Discharges.currentGraph hc).bind fun g c' _ hc' => ?_
    exact (h.qualifiers_discharges protocols hc').andThen fun ids d _ hd => .pure hd _
  | pointer pointee =>
    exact ((htype pointee List.mem_cons_self a ha).bind fun id b _ hb => .pure hb _).append_nil
  | block returns params =>
    exact (Discharges.mapM htype ha).bind fun ids b _ hb => .pure hb _
  | functionPointer returns params =>
    exact (Discharges.mapM htype ha).bind fun ids b _ hb => .pure hb _
  | constantArray element size =>
    exact ((htype element List.mem_cons_self a ha).bind fun id b _ hb => .pure hb _).append_nil
  | incompleteArray element =>
    exact ((htype element List.mem_cons_self a ha).bind fun id b _ hb => .pure hb _).append_nil
  | record x =>
    rw [convert]
    cases hunion : unionName? unit x with
    | some name =>
      have hdependencies : (TypeNode.record x).dependencies unit = [] := by
        simp [TypeNode.dependencies, hunion]
      rw [hdependencies]
      exact .pure ha _
    | none =>
      have hdependencies : (TypeNode.record x).dependencies unit = [x] := by
        simp [TypeNode.dependencies, hunion]
      rw [hdependencies]
      exact (h.dependency_discharges x "" ha).bind fun i b _ hb => .pure hb _
  | enumeration x =>
    exact (h.dependency_discharges x "" ha).bind fun i b _ hb => .pure hb _
  | typeParameter name => exact .pure ha _
  | «alias» name underlying => exact (alias_discharges hassured htype ha).append_nil

/-- The types that are being resolved around `t` have `t` as a part. -/
theorem resolve_discharges (around : List TypeRef) (t : TypeRef)
    (haround : ∀ r ∈ around, Relation.TransGen (IsPart unit) t r)
    (ha : Truthful unit settings roots active a) :
    Discharges unit settings roots active e (resolve unit entity around t) a
      (typeDemands unit around t) := by
  induction around, t using resolve.induct unit generalizing a with
  | case1 around t ih =>
    intro hcomes
    obtain ⟨id, hknown, hrun⟩ | ⟨-, hu, hrun⟩ | ⟨node, -, hu, hr, hrun⟩ |
      ⟨node, -, hu, hr, hrun⟩ := resolve_cases unit entity around t a
    · -- whatever stands for `t` has been made of what is ready
      refine .of_run_ok hrun ha fun z hz => ?_
      exact ((ha.sound.type hknown).resolves.met haround z hz).mono fun x => ha.sound.promised
    · rw [typeDemands_of_dangling hu]
      exact .of_run_error hrun ha .head (.refl _)
    · rw [typeDemands_of_cycle hu hr]
      exact .of_run_error hrun ha .head (.refl _)
    · have hpart (u : TypeRef) (hmem : u ∈ node.parts) :
          ∀ r ∈ t :: around, Relation.TransGen (IsPart unit) u r :=
        IsPart.around ⟨node, hu, hmem⟩ haround
      have hconvert := h.convert_discharges
        (fun u hmem => resolve_assures h.assured (t :: around) u (hpart u hmem))
        (fun u hmem b hb => ih node hu hr u (hpart u hmem) hb) ha
      have hsound := (resolve_assures h.assured around t haround a ha.sound).invariant
      rw [hrun] at hsound
      rw [typeDemands_of_fresh hu hr] at hcomes ⊢
      refine .of_run hrun (hconvert.andThen (fun type b hconverted hb _ => ?_) hcomes)
      rw [run_bind, hconverted] at hsound
      exact .of_run_ok_nil (run_addType t type b) (hb.of_answer hsound fun _ => rfl)

/-! ### Entities -/

/-- What cannot be made is left out, so that members always pass. -/
theorem gatherMembers_discharges (refs : MemberRefs) (owner : String)
    (ha : Truthful unit settings roots active a) :
    Discharges unit settings roots active e (gatherMembers entity refs owner) a
      (refs.all.map .optional) := by
  intro hcomes
  refine .of_agrees ((Agrees.composes _).gatherMembers (h.requests hcomes)) ha (fun f hf => ?_)
    (Demand.met_optional _ refs.all)
  exact (gatherMembers_gathers (E := False) h.assured ha.sound refs owner).failure f hf

/-- Nothing is demanded where nothing is referred to. -/
theorem optionalDependency_discharges (x : Option DeclRef) (owner : String)
    (ha : Truthful unit settings roots active a) :
    Discharges unit settings roots active e (optionalDependency unit entity owner x) a
      (x.toList.map .entity) := by
  cases x with
  | none => exact .pure ha none
  | some x =>
    show Discharges unit settings roots active e (some <$> dependency unit entity x owner) a
      [.entity x]
    rw [map_eq_pure_bind]
    exact (h.dependency_discharges x owner ha).andThen fun id b _ hb => .pure hb _

/-- The fields of a record demand their types, in order. -/
theorem fields_discharges (fields : List Field) (ha : Truthful unit settings roots active a) :
    Discharges unit settings roots active e (fields.mapM fun f => do
        let type ← dependingOn ("field '" ++ f.name ++ "'") (resolve unit entity [] f.type)
        return (⟨f.name, type⟩ : EntityField)) a
      ((fields.map Field.type).flatMap (typeDemands unit [])) := by
  rw [List.flatMap_map]
  refine Discharges.mapM (fun f _ b hb => ?_) ha
  have hresolve := h.resolve_discharges [] f.type (by simp) hb
  exact (hresolve.dependingOn _).andThen fun id c _ hc => .pure hc _

/-- A signature demands the type that is returned, and then those of the parameters. -/
theorem signature_discharges (callable : Callable) (ha : Truthful unit settings roots active a) :
    Discharges unit settings roots active e (signature unit entity callable) a
      ((callable.returns :: callable.params.map Parameter.type).flatMap (typeDemands unit [])) :=
  .mapM (fun t _ _ hb => h.resolve_discharges [] t (by simp) hb) ha

/-- The cases together: what is built has demanded what its declaration does. -/
theorem buildShape_discharges (decl : Declaration) (owner : String)
    (ha : Truthful unit settings roots active a) :
    Discharges unit settings roots active e (buildShape unit settings entity decl owner) a
      (shapeDemands unit decl) := by
  unfold buildShape shapeDemands shapeChecks
  cases hshape : decl.shape with
  | function callable =>
    refine (Discharges.ofExcept ha _).bind fun flags b _ hb => ?_
    exact (h.signature_discharges callable hb).bind fun ids c _ hc => .pure hc _
  | record isUnion fields =>
    cases isUnion with
    | true =>
      refine (Discharges.ofExcept ha (.error _)).bind fun _ b _ hb => ?_
      exact (h.fields_discharges fields hb).bind fun es c _ hc => .pure hc _
    | false => exact (h.fields_discharges fields ha).bind fun es c _ hc => .pure hc _
  | «variable» type initializer =>
    refine (Discharges.ofExcept ha _).bind fun value b _ hb => ?_
    refine (h.resolve_discharges [] type (by simp) hb).append_nil.bind fun id c _ hc => .pure hc _
  | enumeration integerType constants =>
    exact (Discharges.ofExcept ha _).bind fun cs b _ hb => .pure hb _
  | enumConstant value => exact .pure ha _
  | interface superclass members typeParameters =>
    refine (h.optionalDependency_discharges superclass "" ha).bind fun base b _ hb => ?_
    exact (h.gatherMembers_discharges members decl.name hb).andThen fun m c _ hc => .pure hc _
  | protocol members =>
    exact (h.gatherMembers_discharges members decl.name ha).andThen fun m b _ hb => .pure hb _
  | category interface members =>
    refine (h.dependency_discharges interface "" ha).bind fun extended b _ hb => ?_
    exact (h.gatherMembers_discharges members _ hb).andThen fun m c _ hc => .pure hc _
  | method callable isStatic isAccessor isOptional =>
    refine (Discharges.ofExcept ha _).bind fun flags b _ hb => ?_
    exact (h.signature_discharges callable hb).bind fun ids c _ hc => .pure hc _
  | property getter setter isStatic isOptional =>
    show Discharges unit settings roots active e _ a
      ([] ++ ((getter.toList ++ setter.toList).map Demand.entity ++ []))
    rw [List.map_append, List.nil_append, List.append_nil]
    refine (h.optionalDependency_discharges getter owner ha).bind fun get b _ hb => ?_
    exact (h.optionalDependency_discharges setter owner hb).andThen fun set c _ hc => .pure hc _

/-- A construction discharges the demands of its declaration. -/
theorem build_discharges {decl : Declaration} (hdecl : unit.declaration? e = some decl)
    (owner : String) (ha : Truthful unit settings roots active a) :
    Meets unit settings roots active (build unit settings entity e decl owner) a
      (demands unit settings e) := by
  have hbuild : Discharges unit settings roots active e (build unit settings entity e decl owner) a
      (Demand.ofCheck (Window.ofDeclaration settings decl) ++ shapeDemands unit decl) := by
    refine (Discharges.ofExcept ha _).bind fun window b _ hb => ?_
    exact (h.buildShape_discharges decl owner hb).andThen fun shape c _ hc => .pure hc _
  rw [← demands_of_declared hdecl] at hbuild
  exact hbuild fun z hz => hz

end Underway

end InteropGraph.Assembly
