import InteropGraph.Proofs.Assembly.Declarations
import InteropGraph.Proofs.Assembly.Growth

/-!
# Which requests succeed

Requests keep an assembly sound and fail only for what is not constructible, by induction over the
constructions under way (`request_assures`). Conversely what is ready is consistent when nothing is
under construction (`Sound.consistent`). So a request succeeds exactly if its declaration is
constructible, whatever has been requested before and in whatever order.
-/

namespace InteropGraph.Assembly

variable {unit : SourceUnit} {settings : Settings} {active : List DeclRef} {a : Assembly}
  {d : DeclRef}

/-- A construction is as good as its steps, which may rely on the promise of its own entity. -/
theorem construct_assures (ha : Sound unit settings active a) (hd : a.answer? d = none)
    {decl : Declaration} (hdecl : unit.declaration? d = some decl) {build : Assemble Entity}
    (hextending : Extending unit build)
    (hbuild : ∀ b, Sound unit settings (d :: active) b →
      Assures (Sound unit settings (d :: active)) build b
        (fun e c => Complete unit settings c d decl e) (¬Constructible unit settings d)) :
    Assures (Sound unit settings active) (construct d build) a
      (fun id b => b.answer? d = some (.ok id)) (¬Constructible unit settings d) := by
  have hdeclared : (unit.declaration? d).isSome := by rw [hdecl]; rfl
  have hrun := run_construct d build a
  have hext := hextending (a.begin d).2
  obtain ⟨-, hsound, hok, herror⟩ := hbuild (a.begin d).2 (ha.begin hd)
  rcases hbuilt : build.run (a.begin d).2 with ⟨f | e, b⟩
  · rw [hbuilt] at hrun hext hsound herror
    -- the steps failed for a good reason, so the failure may be remembered
    have hfail : ¬Constructible unit settings d := herror f rfl
    exact .of_run_error hrun (.of_extends (abandon_extends hext hd hdeclared f))
      (.abandon hd hdeclared hext ha hsound hfail f) hfail
  · rw [hbuilt] at hrun hext hsound hok
    have hcomplete : Complete unit settings b d decl e := hok e rfl
    refine .of_run_ok hrun (.of_extends (complete_extends hext hd hdeclared hcomplete.source))
      (.complete hext hsound hcomplete) ?_
    exact hext.answer (by rw [answer?_begin, if_pos rfl])

/-- The run lemma: a request keeps the memory sound, succeeds with a place that it remembers, and
fails for what is not constructible only. -/
theorem request_assures (unit : SourceUnit) (settings : Settings) (active : List DeclRef)
    (d : DeclRef) (owner : String) (a : Assembly) (ha : Sound unit settings active a) :
    Assures (Sound unit settings active) (request unit settings active d owner) a
      (fun id b => b.answer? d = some (.ok id)) (¬Constructible unit settings d) := by
  -- the induction hypothesis is for requests from inside, when `d` is under construction as well
  induction active, d, owner using request.induct unit generalizing a with
  | case1 active d owner ih =>
    obtain ⟨r, hd, hrun⟩ | ⟨-, hu, hrun⟩ | ⟨decl, hd, -, hactive, hrun⟩ |
      ⟨decl, hd, hu, hactive, hrun⟩ := request_cases unit settings active d owner a
    · have hcount : Grows a a.countHit := .of_extends (.countHit unit a)
      cases r with
      | ok id => exact .of_run_ok hrun hcount ha.countHit hd
      | error f => exact .of_run_error hrun hcount ha.countHit (ha.failed hd)
    · refine .of_run_error hrun (.refl a) ha fun hc => ?_
      obtain ⟨decl, hdecl, -⟩ := consistent_constructible d hc
      cases hu.symm.trans hdecl
    · -- what is under way has an answer, so that there are no requests of this kind
      obtain ⟨id, hid⟩ := ha.underway d hactive
      cases hd.symm.trans hid
    · refine .of_run hrun (.refl a) ?_
      refine construct_assures ha hd hu
        (build_extending (request_extending unit settings (d :: active)) d decl owner)
        fun b hb => build_assures ?_ hu owner hb
      exact fun other owner c hc => ih decl hu hactive other owner c hc

/-- A request from outside. -/
theorem create_assures (ha : Sound unit settings [] a) (d : DeclRef) (owner : String) :
    Assures (Sound unit settings []) (create unit settings d owner) a
      (fun id b => b.answer? d = some (.ok id)) (¬Constructible unit settings d) :=
  request_assures unit settings [] d owner a ha

/-! ### Sequences of requests -/

/-- The state after requests for some declarations, each with the owner for look-ups of names. -/
def afterCreates (unit : SourceUnit) (settings : Settings) (requests : List (DeclRef × String)) :
    Assembly :=
  requests.foldl (fun a r => ((create unit settings r.1 r.2).run a).2) .empty

/-- The last request is made in the state after the others. -/
theorem afterCreates_concat (unit : SourceUnit) (settings : Settings)
    (requests : List (DeclRef × String)) (d : DeclRef) (owner : String) :
    afterCreates unit settings (requests ++ [(d, owner)]) =
      ((create unit settings d owner).run (afterCreates unit settings requests)).2 :=
  List.foldl_append

/-- What holds at the beginning and is kept by each of the requests holds after all of them. -/
theorem afterCreates_induction {I : Assembly → Prop} {requests : List (DeclRef × String)}
    (hempty : I .empty)
    (hcreate : ∀ r ∈ requests, ∀ a, I a → I ((create unit settings r.1 r.2).run a).2) :
    I (afterCreates unit settings requests) :=
  List.foldlRecOn requests _ hempty fun a ha r hr => hcreate r hr a ha

/-- The memory is sound after any requests. -/
theorem sound_afterCreates (unit : SourceUnit) (settings : Settings)
    (requests : List (DeclRef × String)) :
    Sound unit settings [] (afterCreates unit settings requests) :=
  afterCreates_induction (.empty unit settings) fun r _ _ ha =>
    (create_assures ha r.1 r.2).invariant

/-- **Verdicts do not depend on the order of requests.** After any requests, a request succeeds
exactly if its declaration is in the greatest consistent set. -/
theorem create_succeeds_iff (unit : SourceUnit) (settings : Settings)
    (earlier : List (DeclRef × String)) (d : DeclRef) (owner : String) :
    (∃ id, ((create unit settings d owner).run (afterCreates unit settings earlier)).1 = .ok id) ↔
      Constructible unit settings d := by
  have h := request_assures unit settings [] d owner _ (sound_afterCreates unit settings earlier)
  constructor
  · rintro ⟨id, hid⟩
    -- what is ready afterwards is itself a consistent set that holds `d`
    exact ⟨_, h.invariant.consistent, id, h.success id hid⟩
  · intro hd
    cases hrun : ((create unit settings d owner).run (afterCreates unit settings earlier)).1 with
    | ok id => exact ⟨id, rfl⟩
    | error f => exact absurd hd (h.failure f hrun)

end InteropGraph.Assembly
