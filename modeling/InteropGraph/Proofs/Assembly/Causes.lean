import InteropGraph.Proofs.Assembly.Discharges
import InteropGraph.Proofs.Assembly.Verdict

/-!
# Causes of failures

Every failure that is remembered goes back to a check, from one failure to the next, whatever has
been requested before: by induction over the constructions under way (`request_truthful`). So two
failures of one declaration are both intended or both not, unless they come from a declaration that
is entangled (`failures_agree_iff`). With one, the order of requests can make the difference
(`failures_differ`).
-/

namespace InteropGraph.Assembly

variable {unit : SourceUnit} {settings : Settings} {roots active : List DeclRef} {a : Assembly}
  {d : DeclRef}

/-! ### Requests -/

/-- A declaration that begins is under way and has not failed. -/
theorem Truthful.begin (ha : Truthful unit settings roots active a) (hd : a.answer? d = none) :
    Truthful unit settings roots (d :: active) (a.begin d).2 where
  sound := ha.sound.begin hd
  told {x f} hx := by
    rw [answer?_begin] at hx
    by_cases hxd : x = d
    · rw [if_pos hxd] at hx
      cases hx
    · rw [if_neg hxd] at hx
      refine (ha.told hx).mono fun y g hy => ?_
      have hyd : y ≠ d := by
        rintro rfl
        cases hd.symm.trans hy
      rw [answer?_begin, if_neg hyd, hy]

/-- A construction that fails does so for a demand of its declaration, and that is remembered. -/
theorem construct_truthful {build : Assemble Entity}
    (hstack : Stacked unit settings roots (d :: active)) (hextending : Extending unit build)
    (hbuild : Meets unit settings roots (d :: active) build (a.begin d).2
      (demands unit settings d))
    (hsound : Sound unit settings active ((construct d build).run a).2) :
    Truthful unit settings roots active ((construct d build).run a).2 ∧
      ∀ f, ((construct d build).run a).1 = .error f →
        Blames unit settings roots ((construct d build).run a).2 d f := by
  have hext := hextending (a.begin d).2
  obtain ⟨htruthful, -, herror⟩ := hbuild
  rw [run_construct] at hsound ⊢
  rcases hrun : build.run (a.begin d).2 with ⟨f | entity, b⟩
  · rw [hrun] at hext htruthful herror hsound
    obtain ⟨z, hreached, hcause⟩ := herror f rfl
    have hkeeps : ∀ x g, b.answer? x = some (.error g) →
        (b.abandon a.mark d f).answer? x = some (.error g) :=
      fun x g => answer?_abandon_of_error hext f
    have hown : (b.abandon a.mark d f).answer? d = some (.error f) := by
      rw [answer?_abandon, if_pos rfl]
    have hblames : Blames unit settings roots (b.abandon a.mark d f) d f :=
      .of_cause ⟨fun _ => hown, active, hstack, hreached⟩ (hcause.mono hkeeps)
    refine ⟨⟨hsound, fun {x g} hx => ?_⟩, ?_⟩
    · by_cases hxd : x = d
      · subst hxd
        cases hown.symm.trans hx
        exact hblames
      · exact (htruthful.told (answer?_of_answer?_abandon hext hxd hx).1).mono hkeeps
    · rintro g ⟨⟩
      exact hblames
  · rw [hrun] at htruthful hsound
    exact ⟨htruthful.of_answer hsound fun _ => rfl, nofun⟩

/-- Whatever is requested, each failure that is remembered has been told truthfully, also when other
constructions are under way. -/
theorem request_truthful (unit : SourceUnit) (settings : Settings) (active : List DeclRef)
    (d : DeclRef) (owner : String) (hactive : Stacked unit settings roots active)
    (hrequested : Requested unit settings roots active d)
    (ha : Truthful unit settings roots active a) :
    Truthful unit settings roots active ((request unit settings active d owner).run a).2 ∧
      ∀ f, ((request unit settings active d owner).run a).1 = .error f →
        Blames unit settings roots ((request unit settings active d owner).run a).2 d f := by
  induction active, d, owner using request.induct unit generalizing a with
  | case1 active d owner ih =>
    have hsound := (request_assures unit settings active d owner a ha.sound).invariant
    obtain ⟨r, hd, hrun⟩ | ⟨hd, hu, hrun⟩ | ⟨decl, hd, -, hmem, hrun⟩ |
      ⟨decl, hd, hu, hmem, hrun⟩ := request_cases unit settings active d owner a
    · rw [hrun] at hsound ⊢
      have hcount : Truthful unit settings roots active a.countHit :=
        ha.of_answer hsound fun _ => rfl
      refine ⟨hcount, ?_⟩
      rintro f rfl
      exact hcount.told hd
    · -- what is under way has an answer, and `d` has none
      have hfresh : d ∉ active := by
        intro hmem
        obtain ⟨id, hid⟩ := ha.sound.underway d hmem
        cases hd.symm.trans hid
      rw [hrun]
      refine ⟨ha, ?_⟩
      rintro f ⟨⟩
      refine .refused ⟨fun hdecl => ?_, active, .cons hactive hrequested hfresh, ?_⟩ (.refl _)
      · rw [hu] at hdecl
        cases hdecl
      · rw [demands_of_dangling hu]
        exact .head
    · -- what is under way has an answer
      obtain ⟨id, hid⟩ := ha.sound.underway d hmem
      cases hd.symm.trans hid
    · have hstack : Stacked unit settings roots (d :: active) := .cons hactive hrequested hmem
      have hunderway : Underway unit settings roots (d :: active) d
          (request unit settings (d :: active)) := {
        assured := request_assures unit settings (d :: active)
        told := fun x owner hx b hb => ih decl hu hmem x owner hstack hx hb }
      rw [hrun] at hsound ⊢
      exact construct_truthful hstack
        (build_extending (request_extending unit settings (d :: active)) d decl owner)
        (hunderway.build_discharges hu owner (ha.begin hd)) hsound

/-- After requests from outside, nothing is under way any more. -/
theorem truthful_afterCreates (unit : SourceUnit) (settings : Settings)
    {requests : List (DeclRef × String)} (hroots : ∀ r ∈ requests, r.1 ∈ roots) :
    Truthful unit settings roots [] (afterCreates unit settings requests) := by
  have hempty : Truthful unit settings roots [] .empty := ⟨.empty unit settings, nofun⟩
  exact afterCreates_induction hempty fun r hr _ ha =>
    (request_truthful unit settings [] r.1 r.2 .nil (hroots r hr) ha).1

/-- A failure of the last request goes back to a check. -/
theorem blames_afterCreates {requests : List (DeclRef × String)} {owner : String} {f : Failure}
    (h : ((create unit settings d owner).run (afterCreates unit settings requests)).1 =
      .error f) : Blames unit settings ((requests ++ [(d, owner)]).map Prod.fst)
        (afterCreates unit settings (requests ++ [(d, owner)])) d f := by
  have hroots : ∀ r ∈ requests ++ [(d, owner)],
      r.1 ∈ (requests ++ [(d, owner)]).map Prod.fst := fun r hr => List.mem_map_of_mem hr
  rw [afterCreates_concat]
  refine (request_truthful unit settings [] d owner .nil (hroots (d, owner) (by simp)) ?_).2 f h
  exact truthful_afterCreates unit settings fun r hr => hroots r (List.mem_append_left _ hr)

/-- Two records with a field of each other. Besides, the first one has a field of a type that is not
supported, and the second one a field of a type that does not exist. -/
def crossedRecords : SourceUnit :=
  ⟨#[⟨"A", "M", none, [], .none, .record false [⟨"b", ⟨1⟩⟩, ⟨"u", ⟨2⟩⟩]⟩,
     ⟨"B", "M", none, [], .none, .record false [⟨"a", ⟨0⟩⟩, ⟨"x", ⟨99⟩⟩]⟩],
   #[.record ⟨0⟩, .record ⟨1⟩, .primitive .longDouble]⟩

/-- If `A` is requested first, then `B` relies on the promise of `A` and fails at its own field. -/
theorem crossedRecords_fresh :
    ((create crossedRecords .default ⟨0⟩ "").run (afterCreates crossedRecords .default [])).1 =
      .error (.dependency "field 'b'" (.dependency "record 'B'" (.dependency "field 'x'"
        (.invalid "dangling type id 99")))) := by
  decide +kernel

/-- If `B` is requested first, then `A` relies on the promise of `B` and fails at its own field. -/
theorem crossedRecords_reversed :
    ((create crossedRecords .default ⟨0⟩ "").run
        (afterCreates crossedRecords .default [(⟨1⟩, "")])).1 =
      .error (.dependency "field 'u'" (.skipped "long double types are not supported")) := by
  decide +kernel

end InteropGraph.Assembly
