import InteropGraph.Proofs.Assembly.Demands

/-!
# What a failure can be blamed on

A construction fails at the first demand that is not met. While `e` is under construction, though, a
request for `e` is answered with its slot, which is only a promise. So a construction may go past a
demand for an entity that will never be made, if that relies on a promise; which demand is the first
that is not met then depends on what is under construction.

`Stacked roots active` says what can be under construction at a time, and `Blames roots a d f`
traces a failure `f` of `d` back from one failure to the next, all of them remembered in `a`. If the
failures of a declaration are intended in one assembly and not in another, then they come from a
declaration that is entangled with one that it needs (`Blames.agree_iff`).
-/

namespace InteropGraph

namespace Failure

/-- The failure `f` is `g`, or comes from it. -/
inductive Carries : Failure → Failure → Prop where
  | refl (f) : Carries f f
  | dependency {f g} (name) (h : Carries f g) : Carries (.dependency name f) g

namespace Carries

variable {f g : Failure}

/-- A failure is of the same kind as what it comes from. -/
theorem isIntended_eq (h : f.Carries g) : f.isIntended = g.isIntended := by
  induction h with
  | refl => rfl
  | dependency _ _ ih => exact ih

/-- A failure that is carried on is told with no shorter chain. -/
theorem chain_length_le (h : f.Carries g) : g.chain.length ≤ f.chain.length := by
  induction h with
  | refl => exact Nat.le_refl _
  | dependency _ _ ih => exact Nat.le_succ_of_le ih

end Carries

end Failure

namespace Assembly

/-- `z` is among the demands, and behind others that all pass. -/
inductive Reaches (passes : Demand → Prop) : List Demand → Demand → Prop where
  | head {z zs} : Reaches passes (z :: zs) z
  | tail {y z zs} (pass : passes y) (rest : Reaches passes zs z) : Reaches passes (y :: zs) z

namespace Reaches

variable {passes passes' : Demand → Prop} {zs ws : List Demand} {z z' : Demand}

/-- What is reached is demanded. -/
theorem mem (h : Reaches passes zs z) : z ∈ zs := by
  induction h with
  | head => exact List.mem_cons_self
  | tail _ _ ih => exact List.mem_cons_of_mem _ ih

/-- What comes behind is not reached before. -/
theorem append_left (h : Reaches passes zs z) (ws : List Demand) :
    Reaches passes (zs ++ ws) z := by
  induction h with
  | head => exact .head
  | tail pass _ ih => exact .tail pass ih

/-- Behind demands that are all passed, further ones are reached. -/
theorem append_right (hzs : ∀ y ∈ zs, passes y) (h : Reaches passes ws z) :
    Reaches passes (zs ++ ws) z := by
  induction zs with
  | nil => exact h
  | cons y zs ih =>
    exact .tail (hzs y List.mem_cons_self) (ih fun x hx => hzs x (List.mem_cons_of_mem y hx))

/-- If all demands pass, then all of them are reached. -/
theorem of_mem (hzs : ∀ y ∈ zs, passes y) (hz : z ∈ zs) : Reaches passes zs z := by
  obtain ⟨front, back, rfl⟩ := List.append_of_mem hz
  exact append_right (fun y hy => hzs y (List.mem_append_left _ hy)) .head

/-- Of two demands that are reached one passes where the other one is reached, or they are the
same. -/
theorem eq_or_pass (h : Reaches passes zs z) (h' : Reaches passes' zs z') :
    z = z' ∨ passes' z ∨ passes z' := by
  induction h with
  | head =>
    cases h' with
    | head => exact .inl rfl
    | tail pass _ => exact .inr (.inl pass)
  | tail pass _ ih =>
    cases h' with
    | head => exact .inr (.inr pass)
    | tail _ rest => exact ih rest

end Reaches

variable (unit : SourceUnit) (settings : Settings)

/-! ### Promises -/

/-- `d` has an entity if those in `active` have: it is in a set of declarations each of which is in
`active`, or can be made with the help of members of the set only. -/
def Promised (active : List DeclRef) (d : DeclRef) : Prop :=
  ∃ G : DeclRef → Prop, (∀ x, G x → x ∈ active ∨
    ∃ decl, unit.declaration? x = some decl ∧ Admissible unit settings G decl) ∧ G d

/-- A demand can be met while `active` is under construction. -/
def Passes (active : List DeclRef) : Demand → Prop :=
  Demand.Met (Promised unit settings active)

/-- The construction of `e`, on top of `active`, may request `x`: behind demands that pass. -/
def ComesTo (active : List DeclRef) (e x : DeclRef) : Prop :=
  ∃ z, Reaches (Passes unit settings active) (demands unit settings e) z ∧ z.target? = some x

/-- `d` may be requested while `active` is under construction: from outside, if it is in `roots`, or
by the construction that was begun last. -/
def Requested (roots : List DeclRef) : (active : List DeclRef) → DeclRef → Prop
  | [], d => d ∈ roots
  | e :: active, d => ComesTo unit settings (e :: active) e d

/-- The declarations that can be under construction at a time, the latest first, if those in `roots`
are requested from outside. -/
inductive Stacked (roots : List DeclRef) : List DeclRef → Prop where
  | nil : Stacked roots []
  | cons {active d} (below : Stacked roots active)
      (requested : Requested unit settings roots active d) (fresh : d ∉ active) :
      Stacked roots (d :: active)

/-! ### Failures that are remembered -/

/-- The failure `f` of `d` is remembered, if there is such a declaration. -/
def Told (a : Assembly) (d : DeclRef) (f : Failure) : Prop :=
  (unit.declaration? d).isSome → a.answer? d = some (.error f)

/-- A construction of `d` has failed with `f`, which is remembered, at the demand `z`. -/
def StopsAt (roots : List DeclRef) (a : Assembly) (d : DeclRef) (f : Failure) (z : Demand) : Prop :=
  Told unit a d f ∧ ∃ active, Stacked unit settings roots (d :: active) ∧
    Reaches (Passes unit settings (d :: active)) (demands unit settings d) z

/-- The failure `f` of `d` goes back to a check, from one failure that is remembered to the next. -/
inductive Blames (roots : List DeclRef) (a : Assembly) : DeclRef → Failure → Prop where
  | refused {d f g} (stops : StopsAt unit settings roots a d f (.refused g))
      (carries : f.Carries g) : Blames roots a d f
  | entity {d x f g} (stops : StopsAt unit settings roots a d f (.entity x))
      (carries : f.Carries (.dependency (describe unit x) g)) (cause : Blames roots a x g) :
      Blames roots a d f

/-- A demand that is not met can end a construction with the failure `f`. -/
def Causes (roots : List DeclRef) (a : Assembly) (f : Failure) : Demand → Prop
  | .refused g => f.Carries g
  | .entity x => ∃ g, f.Carries (.dependency (describe unit x) g) ∧ Blames unit settings roots a x g
  | .optional _ => False

/-- The failure of `d` that is remembered is the one of `x`, which the construction of `d` has
demanded in vain. -/
def FailsThrough (roots : List DeclRef) (a : Assembly) (d x : DeclRef) : Prop :=
  ∃ f g, StopsAt unit settings roots a d f (.entity x) ∧ a.answer? x = some (.error g) ∧
    f.Carries (.dependency (describe unit x) g)

/-- In `a`, which has been reached by requests of `roots`, the failure of `e` goes back to one of
`y`. But if `roots'` are requested from outside, then `y` can be under construction when `e` is, so
that what relies on `y` passes. -/
def Entangled (roots roots' : List DeclRef) (a : Assembly) (e : DeclRef) : Prop :=
  ∃ y active, Relation.TransGen (FailsThrough unit settings roots a) e y ∧
    Stacked unit settings roots' (e :: active) ∧ y ∈ active

/-- Both in `a`, which has been reached by requests of `roots`, and in `a'`, which has been reached
by requests of `roots'`, the failure of `d` is the one of `e`. That is intended in one of the two
and not in the other, and `e` is entangled. -/
structure Divergence (roots roots' : List DeclRef) (a a' : Assembly) (d e : DeclRef) : Prop where
  through : Relation.ReflTransGen (FailsThrough unit settings roots a) d e
  through' : Relation.ReflTransGen (FailsThrough unit settings roots' a') d e
  differ : ∃ f f', a.answer? e = some (.error f) ∧ a'.answer? e = some (.error f') ∧
    f.isIntended ≠ f'.isIntended
  entangled : Entangled unit settings roots roots' a e ∨ Entangled unit settings roots' roots a' e

variable {unit settings} {roots roots' active : List DeclRef} {a a' b : Assembly} {d e x : DeclRef}
  {f f' g : Failure} {z : Demand}

/-! ### Stacks -/

theorem Stacked.of_cons (h : Stacked unit settings roots (d :: active)) :
    Stacked unit settings roots active := by
  cases h with
  | cons below _ _ => exact below

/-- Whatever is under construction below another construction is declared. -/
theorem Stacked.declared (h : Stacked unit settings roots (e :: active)) :
    ∀ y ∈ active, (unit.declaration? y).isSome := by
  induction active generalizing e with
  | nil => exact nofun
  | cons x active ih =>
    cases h with
    | cons below requested _ =>
      obtain ⟨z, hreached, hz⟩ := requested
      intro y hy
      rcases List.mem_cons.mp hy with rfl | hy
      · exact declared_of_mem_demands hreached.mem hz
      · exact ih below y hy

/-- What is promised has its demands met, unless it is under construction itself. -/
theorem Promised.met (h : Promised unit settings active d) :
    d ∈ active ∨ ∀ z ∈ demands unit settings d, Passes unit settings active z := by
  obtain ⟨G, hG, hd⟩ := h
  refine (hG d hd).imp_right fun ⟨decl, hdecl, hadm⟩ z hz => ?_
  exact (hadm.met hdecl z hz).mono fun x hx => ⟨G, hG, hx⟩

/-- Only what is declared is promised, as long as this is so of what is under way. -/
theorem Promised.declared (hactive : ∀ y ∈ active, (unit.declaration? y).isSome)
    (h : Promised unit settings active d) : (unit.declaration? d).isSome := by
  obtain ⟨G, hG, hd⟩ := h
  rcases hG d hd with hmem | ⟨decl, hdecl, -⟩
  · exact hactive d hmem
  · rw [hdecl]
    rfl

/-! ### Failures -/

theorem StopsAt.mem (h : StopsAt unit settings roots a d f z) : z ∈ demands unit settings d := by
  obtain ⟨-, active, -, hreached⟩ := h
  exact hreached.mem

/-- What stops at an entity is declared. -/
theorem StopsAt.declared (h : StopsAt unit settings roots a d f (.entity x)) :
    (unit.declaration? d).isSome :=
  declared_of_mem_demands h.mem rfl

/-- A name in front of a failure is no other cause. -/
theorem Causes.dependency (h : Causes unit settings roots a f z) (name : String) :
    Causes unit settings roots a (.dependency name f) z := by
  cases z with
  | refused g => exact Failure.Carries.dependency name h
  | entity x =>
    obtain ⟨g, hcarries, hcause⟩ := h
    exact ⟨g, .dependency name hcarries, hcause⟩
  | optional x => exact h

namespace FailsThrough

/-- Failures are of the same kind as what they come from, and tell a longer story. -/
theorem trans_failures (h : Relation.TransGen (FailsThrough unit settings roots a) d x) :
    ∃ f g, a.answer? d = some (.error f) ∧ a.answer? x = some (.error g) ∧
      f.isIntended = g.isIntended ∧ g.chain.length < f.chain.length := by
  have one {d x : DeclRef} (h : FailsThrough unit settings roots a d x) :
      ∃ f g, a.answer? d = some (.error f) ∧ a.answer? x = some (.error g) ∧
        f.isIntended = g.isIntended ∧ g.chain.length < f.chain.length := by
    obtain ⟨f, g, stops, hx, hcarries⟩ := h
    exact ⟨f, g, stops.1 stops.declared, hx, hcarries.isIntended_eq, hcarries.chain_length_le⟩
  induction h with
  | single h => exact one h
  | tail _ h ih =>
    obtain ⟨f, g, hd, hx, hkind, hlength⟩ := ih
    obtain ⟨g', k, hx', hy, hkind', hlength'⟩ := one h
    cases hx.symm.trans hx'
    exact ⟨f, k, hd, hy, hkind.trans hkind', hlength'.trans hlength⟩

/-- No failure comes from itself. -/
theorem irrefl : ¬Relation.TransGen (FailsThrough unit settings roots a) d d := by
  intro h
  obtain ⟨f, g, hd, hd', -, hlength⟩ := trans_failures h
  cases hd.symm.trans hd'
  exact absurd hlength (Nat.lt_irrefl _)

/-- All failures along a chain are intended, or none is, since each is that of the next one. -/
theorem isIntended_eq (h : Relation.ReflTransGen (FailsThrough unit settings roots a) d x)
    (hd : a.answer? d = some (.error f)) (hx : a.answer? x = some (.error g)) :
    f.isIntended = g.isIntended := by
  rcases Relation.reflTransGen_iff_eq_or_transGen.mp h with rfl | h
  · cases hd.symm.trans hx
    rfl
  · obtain ⟨f', g', hd', hx', hkind, -⟩ := trans_failures h
    cases hd.symm.trans hd'
    cases hx.symm.trans hx'
    exact hkind

end FailsThrough

namespace Blames

theorem of_cause (stops : StopsAt unit settings roots a d f z)
    (cause : Causes unit settings roots a f z) : Blames unit settings roots a d f := by
  cases z with
  | refused g => exact .refused stops cause
  | entity x =>
    obtain ⟨g, hcarries, hcause⟩ := cause
    exact .entity stops hcarries hcause
  | optional x => exact cause.elim

theorem exists_stop (h : Blames unit settings roots a d f) : ∃ z,
    StopsAt unit settings roots a d f z ∧ Causes unit settings roots a f z := by
  cases h with
  | @refused d f g stops carries => exact ⟨.refused g, stops, carries⟩
  | @entity d x f g stops carries cause => exact ⟨.entity x, stops, g, carries, cause⟩

theorem told (h : Blames unit settings roots a d f) : Told unit a d f := by
  obtain ⟨z, stops, -⟩ := h.exists_stop
  exact stops.1

/-- Failures stay what they are while they are remembered. -/
theorem mono (hab : ∀ x g, a.answer? x = some (.error g) → b.answer? x = some (.error g))
    (h : Blames unit settings roots a d f) : Blames unit settings roots b d f := by
  induction h with
  | refused stops carries =>
    exact .refused ⟨fun hdecl => hab _ _ (stops.1 hdecl), stops.2⟩ carries
  | entity stops carries _ ih =>
    exact .entity ⟨fun hdecl => hab _ _ (stops.1 hdecl), stops.2⟩ carries ih

/-- What does not exist fails for that reason. -/
theorem isIntended_of_dangling (h : Blames unit settings roots a d f)
    (hd : unit.declaration? d = none) : f.isIntended = false := by
  obtain ⟨z, stops, cause⟩ := h.exists_stop
  have hz := stops.mem
  rw [demands_of_dangling hd, List.mem_singleton] at hz
  subst hz
  exact Failure.Carries.isIntended_eq cause

/-- What has failed can only be promised if its failure goes back to a construction under way. -/
theorem exists_active (h : Blames unit settings roots a d f)
    (hactive : ∀ y ∈ active, (unit.declaration? y).isSome)
    (hd : Promised unit settings active d) :
    ∃ y ∈ active, Relation.ReflTransGen (FailsThrough unit settings roots a) d y := by
  induction h with
  | @refused d f g stops _ =>
    rcases hd.met with hmem | hmet
    · exact ⟨d, hmem, .refl⟩
    · exact (hmet _ stops.mem).elim
  | @entity d x f g stops carries cause ih =>
    rcases hd.met with hmem | hmet
    · exact ⟨d, hmem, .refl⟩
    · have hx : Promised unit settings active x := hmet _ stops.mem
      obtain ⟨y, hy, hxy⟩ := ih hx
      exact ⟨y, hy, .head ⟨f, g, stops, cause.told (hx.declared hactive), carries⟩ hxy⟩

/-- A declaration that has failed at a demand which passes elsewhere is entangled. -/
theorem entangled (stops : StopsAt unit settings roots a d f z)
    (cause : Causes unit settings roots a f z)
    (hstack : Stacked unit settings roots' (d :: active))
    (hpass : Passes unit settings (d :: active) z) : Entangled unit settings roots roots' a d := by
  cases z with
  | refused g => exact hpass.elim
  | optional x => exact cause.elim
  | entity x =>
    obtain ⟨g, hcarries, hcause⟩ := cause
    have hactive : ∀ y ∈ d :: active, (unit.declaration? y).isSome := by
      intro y hy
      rcases List.mem_cons.mp hy with rfl | hy
      · exact stops.declared
      · exact hstack.declared y hy
    have hdx : FailsThrough unit settings roots a d x :=
      ⟨f, g, stops, hcause.told (hpass.declared hactive), hcarries⟩
    obtain ⟨y, hy, hxy⟩ := hcause.exists_active hactive hpass
    have hdy : Relation.TransGen (FailsThrough unit settings roots a) d y := .head' hdx hxy
    rcases List.mem_cons.mp hy with rfl | hy
    · exact absurd hdy FailsThrough.irrefl
    · exact ⟨y, active, hdy, hstack, hy⟩

end Blames

/-- A failure keeps its cause while others are added. -/
theorem Causes.mono (hab : ∀ x g, a.answer? x = some (.error g) → b.answer? x = some (.error g))
    (h : Causes unit settings roots a f z) : Causes unit settings roots b f z := by
  cases z with
  | refused g => exact h
  | entity x =>
    obtain ⟨g, hcarries, hcause⟩ := h
    exact ⟨g, hcarries, hcause.mono hab⟩
  | optional x => exact h

/-- What is entangled has failed at a demand for an entity. -/
theorem Entangled.stops (h : Entangled unit settings roots roots' a d) : ∃ f x,
    StopsAt unit settings roots a d f (.entity x) := by
  obtain ⟨y, active, hdy, -⟩ := h
  obtain ⟨x, ⟨f, g, stops, -⟩, -⟩ := Relation.TransGen.head'_iff.mp hdy
  exact ⟨f, x, stops⟩

/-- Only what is declared is entangled. -/
theorem Entangled.declared (h : Entangled unit settings roots roots' a d) :
    (unit.declaration? d).isSome := by
  obtain ⟨f, x, stops⟩ := h.stops
  exact stops.declared

/-- A construction comes to what is entangled. -/
theorem Entangled.exists_comesTo (h : Entangled unit settings roots roots' a d) :
    ∃ y active, ComesTo unit settings (y :: active) y d := by
  obtain ⟨y, active, -, hstack, hy⟩ := h
  cases active with
  | nil => cases hy
  | cons x active =>
    cases hstack with
    | cons _ requested _ => exact ⟨x, active, requested⟩

/-- Two records with a field of each other. The second one has a field of a type that is not
supported before that. -/
def stoppedRecords : SourceUnit :=
  ⟨#[⟨"E", "M", none, [], .none, .record false [⟨"x", ⟨1⟩⟩, ⟨"bad", ⟨99⟩⟩]⟩,
     ⟨"X", "M", none, [], .none, .record false [⟨"ld", ⟨2⟩⟩, ⟨"e", ⟨0⟩⟩]⟩],
   #[.record ⟨0⟩, .record ⟨1⟩, .primitive .longDouble]⟩

/-- A construction of `X` stops before it comes to `E`, so that nothing is entangled. -/
example (roots roots' : List DeclRef) (a : Assembly) (e : DeclRef) :
    ¬Entangled stoppedRecords .default roots roots' a e := by
  have hE : demands stoppedRecords .default ⟨0⟩ =
      [.entity ⟨1⟩, .refused (.invalid "dangling type id 99")] := by decide +kernel
  have hX : demands stoppedRecords .default ⟨1⟩ =
      [.refused (.skipped "long double types are not supported"), .entity ⟨0⟩] := by decide +kernel
  intro h
  obtain ⟨f, x, stops⟩ := h.stops
  obtain ⟨y, active, z, hz, hze⟩ := h.exists_comesTo
  have hdeclared {d : DeclRef} (hd : (stoppedRecords.declaration? d).isSome) :
      d = ⟨0⟩ ∨ d = ⟨1⟩ := by
    obtain ⟨decl, hdecl⟩ := Option.isSome_iff_exists.mp hd
    have hmem : d ∈ stoppedRecords.declRefs := SourceUnit.mem_declRefs hdecl
    rwa [show stoppedRecords.declRefs = [⟨0⟩, ⟨1⟩] by decide +kernel, List.mem_pair] at hmem
  rcases hdeclared (declared_of_mem_demands hz.mem hze) with rfl | rfl
  · rw [hE] at hz
    rcases hz with _ | ⟨_, _ | ⟨pass, _⟩⟩
    · cases hze
      obtain ⟨-, _, -, hreached⟩ := stops
      rw [hX] at hreached
      rcases hreached with _ | ⟨pass, _⟩
      exact pass.elim
    · cases hze
    · exact pass.elim
  · rw [hX] at hz
    rcases hz with _ | ⟨pass, _⟩
    · cases hze
    · exact pass.elim
/-- An entangled declaration whose failures are not of the same kind is the one that matters. -/
theorem Blames.agree_of_entangled (h : Blames unit settings roots a d f)
    (h' : Blames unit settings roots' a' d f')
    (hd : Entangled unit settings roots roots' a d ∨ Entangled unit settings roots' roots a' d) :
    f.isIntended = f'.isIntended ∨ ∃ e, Divergence unit settings roots roots' a a' d e := by
  have hdecl : (unit.declaration? d).isSome := hd.elim Entangled.declared Entangled.declared
  by_cases hkind : f.isIntended = f'.isIntended
  · exact .inl hkind
  · exact .inr ⟨d, .refl, .refl, ⟨f, f', h.told hdecl, h'.told hdecl, hkind⟩, hd⟩

/-- If both runs fail through the same declaration, they diverge later. -/
theorem Divergence.head (hdx : FailsThrough unit settings roots a d x)
    (hdx' : FailsThrough unit settings roots' a' d x)
    (h : Divergence unit settings roots roots' a a' x e) :
    Divergence unit settings roots roots' a a' d e :=
  ⟨.head hdx h.through, .head hdx' h.through', h.differ, h.entangled⟩

/-- Failures of different kinds come from an entangled declaration. -/
theorem Blames.agree (h : Blames unit settings roots a d f)
    (h' : Blames unit settings roots' a' d f') :
    f.isIntended = f'.isIntended ∨ ∃ e, Divergence unit settings roots roots' a a' d e := by
  induction h generalizing f' with
  | @refused d f g stops carries =>
    obtain ⟨z', stops', cause'⟩ := h'.exists_stop
    obtain ⟨active, hstack, hreached⟩ := stops.2
    obtain ⟨active', -, hreached'⟩ := stops'.2
    rcases hreached.eq_or_pass hreached' with rfl | hpass | hpass
    · exact .inl (carries.isIntended_eq.trans (Failure.Carries.isIntended_eq cause').symm)
    · exact hpass.elim
    · refine agree_of_entangled (.refused stops carries) h' (.inr ?_)
      exact entangled stops' cause' hstack hpass
  | @entity d x f g stops carries cause ih =>
    obtain ⟨z', stops', cause'⟩ := h'.exists_stop
    obtain ⟨active, hstack, hreached⟩ := stops.2
    obtain ⟨active', hstack', hreached'⟩ := stops'.2
    rcases hreached.eq_or_pass hreached' with rfl | hpass | hpass
    · -- both fail at `x`, so that it is the failures of `x` that matter
      obtain ⟨g', carries', cause'⟩ := cause'
      have hkinds : g.isIntended = g'.isIntended → f.isIntended = f'.isIntended := fun hkind =>
        carries.isIntended_eq.trans (hkind.trans carries'.isIntended_eq.symm)
      cases hx : unit.declaration? x with
      | none =>
        have hkind := cause.isIntended_of_dangling hx
        exact .inl (hkinds (hkind.trans (cause'.isIntended_of_dangling hx).symm))
      | some decl =>
        have hx : (unit.declaration? x).isSome := by rw [hx]; rfl
        refine (ih cause').imp hkinds fun ⟨e, he⟩ => ⟨e, he.head ?_ ?_⟩
        · exact ⟨f, g, stops, cause.told hx, carries⟩
        · exact ⟨f', g', stops', cause'.told hx, carries'⟩
    · refine agree_of_entangled (.entity stops carries cause) h' (.inl ?_)
      exact entangled stops ⟨g, carries, cause⟩ hstack' hpass
    · refine agree_of_entangled (.entity stops carries cause) h' (.inr ?_)
      exact entangled stops' cause' hstack hpass

/-- A divergence starts with what demands something. -/
theorem Divergence.declared (h : Divergence unit settings roots roots' a a' d e) :
    (unit.declaration? d).isSome := by
  rcases Relation.ReflTransGen.cases_head h.through with rfl | ⟨x, ⟨f, g, stops, -⟩, -⟩
  · exact h.entangled.elim Entangled.declared Entangled.declared
  · exact stops.declared

/-- Failures are of the same kind exactly if there is no divergence. -/
theorem Blames.agree_iff (h : Blames unit settings roots a d f)
    (h' : Blames unit settings roots' a' d f') :
    f.isIntended = f'.isIntended ↔ ∀ e, ¬Divergence unit settings roots roots' a a' d e := by
  refine ⟨fun hkind e he => ?_, fun hno => (h.agree h').resolve_right fun ⟨e, he⟩ => hno e he⟩
  obtain ⟨g, g', hg, hg', hne⟩ := he.differ
  have hfg := FailsThrough.isIntended_eq he.through (h.told he.declared) hg
  have hfg' := FailsThrough.isIntended_eq he.through' (h'.told he.declared) hg'
  exact hne (hfg.symm.trans (hkind.trans hfg'))

end Assembly

end InteropGraph
