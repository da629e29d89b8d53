import InteropGraph.Proofs.Assembly.Lockstep

/-!
# Every request extends the assembly

`Extending unit m` says that the step `m` leads to an extension from any state. It is kept when
steps are composed, so every construction has it if the requests inside have it; by induction over
the constructions under way, all requests have it.
-/

namespace InteropGraph.Assembly

variable {α : Type} {unit : SourceUnit} {settings : Settings} {entity : Request}

/-- From any state, `m` leads to an extension. -/
def Extending (unit : SourceUnit) (m : Assemble α) : Prop :=
  ∀ a, Extends unit a (m.run a).2

/-- Extending steps compose, each related to itself. -/
theorem extending_composes (unit : SourceUnit) :
    Composes fun _ m m' => m = m' ∧ Extending unit m where
  ofExcept r := ⟨rfl, fun a => by
    rw [run_ofExcept]
    exact .refl unit a⟩
  currentGraph := ⟨rfl, fun a => .refl unit a⟩
  bind {α β m m' k k'} hm hk := by
    obtain ⟨rfl, hm⟩ := hm
    refine ⟨congrArg (m >>= ·) (funext fun v => (hk v).1), fun a => ?_⟩
    have h := hm a
    rw [run_bind]
    rcases hrun : m.run a with ⟨f | v, b⟩
    · rw [hrun] at h
      exact h
    · rw [hrun] at h
      exact h.trans ((hk v).2 b)
  attempt {α m m'} hm := by
    obtain ⟨rfl, hm⟩ := hm
    refine ⟨rfl, fun a => ?_⟩
    rw [run_attempt]
    exact hm a
  dependingOn {α m m'} name hm := by
    obtain ⟨rfl, hm⟩ := hm
    exact ⟨rfl, fun a => hm a⟩

/-! ### Constructions -/

section Parts

variable (hentity : ∀ d owner, Extending unit (entity d owner))
include hentity

/-- A type that is remembered had not been remembered when its resolution began. -/
theorem resolve_extending (resolving : List TypeRef) (t : TypeRef) :
    Extending unit (resolve unit entity resolving t) := by
  induction resolving, t using resolve.induct unit with
  | case1 resolving t ih =>
    intro a
    obtain ⟨id, -, hrun⟩ | ⟨-, -, hrun⟩ | ⟨node, -, -, -, hrun⟩ | ⟨node, ht, hu, hr, hrun⟩ :=
      resolve_cases unit entity resolving t a
    · rw [hrun]
      exact .refl unit a
    · rw [hrun]
      exact .refl unit a
    · rw [hrun]
      exact .refl unit a
    · have hconvert : Extending unit
          (convert unit entity (resolve unit entity (t :: resolving)) node) :=
        ((extending_composes unit).convert (fun d _ owner => ⟨rfl, hentity d owner⟩)
          fun u _ => ⟨rfl, ih node hu hr u⟩).2
      -- `t` may have been resolved inside, but not before this resolution began
      have h := hconvert a
      rw [hrun, run_bind]
      rcases hrun : (convert unit entity (resolve unit entity (t :: resolving)) node).run a with
        ⟨f | type, b⟩
      · rw [hrun] at h
        exact h
      · rw [hrun] at h
        exact h.addType ht type

/-- Building extends the memory if the requests do. -/
theorem build_extending (d : DeclRef) (decl : Declaration) (owner : String) :
    Extending unit (build unit settings entity d decl owner) := by
  have hrelated : ShapeRelated (fun _ m m' => m = m' ∧ Extending unit m) unit entity entity
      decl.shape :=
    ⟨fun d _ owner => ⟨rfl, hentity d owner⟩, fun t _ => ⟨rfl, resolve_extending hentity [] t⟩⟩
  exact ((extending_composes unit).build hrelated owner).2

end Parts

/-- What is built from `d` has `d` for its source. -/
theorem source_of_build {d : DeclRef} {decl : Declaration} {owner : String} {a b : Assembly}
    {e : Entity} (h : (build unit settings entity d decl owner).run a = (.ok e, b)) :
    e.source = some d := by
  obtain ⟨_, _, -, h⟩ := of_run_bind h
  obtain ⟨_, _, -, hpure⟩ := of_run_bind h
  cases hpure
  rfl

/-! ### Requests -/

/-- A construction of what has no answer extends the assembly, if its steps do. -/
theorem construct_extends {d : DeclRef} {build : Assemble Entity} (hbuild : Extending unit build)
    (hdecl : (unit.declaration? d).isSome)
    (hsource : ∀ a b e, build.run a = (.ok e, b) → e.source = some d) {a : Assembly}
    (hd : a.answer? d = none) : Extends unit a ((construct d build).run a).2 := by
  have h := hbuild (a.begin d).2
  rw [run_construct]
  rcases hrun : build.run (a.begin d).2 with ⟨f | e, b⟩
  · rw [hrun] at h
    exact abandon_extends h hd hdecl f
  · rw [hrun] at h
    exact complete_extends h hd hdecl (hsource _ _ _ hrun)

/-- Requests extend the memory, whatever they set in motion. -/
theorem request_extending (unit : SourceUnit) (settings : Settings) (active : List DeclRef)
    (d : DeclRef) (owner : String) :
    Extending unit (request unit settings active d owner) := by
  induction active, d, owner using request.induct unit with
  | case1 active d owner ih =>
    intro a
    obtain ⟨r, -, hrun⟩ | ⟨-, -, hrun⟩ | ⟨decl, -, -, -, hrun⟩ | ⟨decl, hd, hu, hactive, hrun⟩ :=
      request_cases unit settings active d owner a
    · rw [hrun]
      exact .countHit unit a
    · rw [hrun]
      exact .refl unit a
    · rw [hrun]
      exact .refl unit a
    · rw [hrun]
      exact construct_extends (build_extending (ih decl hu hactive) d decl owner)
        (by simp [hu]) (fun _ _ _ => source_of_build) hd

end InteropGraph.Assembly
