import InteropGraph.Proofs.Assembly.Memory
import InteropGraph.Proofs.Assembly.Lockstep
import InteropGraph.Proofs.Assembly.Verdict
import InteropGraph.Proofs.Source

/-!
# How long requests take

A request goes through constructions of declarations that are under way, all different, so it nests
no deeper than there are declarations; likewise for the types that are resolved within one
construction. `requestWithin` and `resolveWithin` go down to a given depth with no regard for this,
and are lost further down: from a depth that is the same for all states they are never lost.

How much is constructed is read off the journal (`Counted`). What is in the journal is ready, so it
is there once; a failure takes entries off, no more than there are declarations, and leaves a
declaration that has failed for good.
-/

namespace InteropGraph.Assembly

/-! ### Depth -/

/-- A request that nests no deeper than `depth` requests; `further` answers those below. -/
def requestWithin (unit : SourceUnit) (settings : Settings) (further : Request) :
    (depth : Nat) → Request
  | 0 => further
  | depth + 1 => fun d owner => do
    match (← get).answer? d with
    | some answer =>
      modify countHit
      ofExcept answer
    | none =>
      match unit.declaration? d with
      | none => throw (.invalid s!"dangling declaration id {d.index.toNat}")
      | some decl =>
        construct d (build unit settings (requestWithin unit settings further depth) d decl owner)

/-- A resolution that nests no deeper than `depth` types; `further` resolves those below. -/
def resolveWithin (unit : SourceUnit) (entity : Request) (further : TypeRef → Assemble TypeId) :
    (depth : Nat) → (resolving : List TypeRef) → TypeRef → Assemble TypeId
  | 0, _, t => further t
  | depth + 1, resolving, t => do
    match (← get).typeId? t with
    | some id => return id
    | none =>
      match unit.type? t with
      | none => throw (.invalid s!"dangling type id {t.index.toNat}")
      | some node =>
        if t ∈ resolving then throw (.invalid s!"cyclic type id {t.index.toNat}")
        else
          let type ←
            convert unit entity (resolveWithin unit entity further depth (t :: resolving)) node
          addType t type

/-- What a call does, with requests that nest no deeper than `depth` inside a construction. -/
def Call.stepWithin (unit : SourceUnit) (settings : Settings) (further : Request) (depth : Nat)
    (c : Call) : Assemble EntityId :=
  if c.anew then
    match unit.declaration? c.decl with
    | none => throw (.invalid s!"dangling declaration id {c.decl.index.toNat}")
    | some decl =>
      construct c.decl
        (build unit settings (requestWithin unit settings further depth) c.decl decl c.owner)
  else requestWithin unit settings further (depth + 1) c.decl c.owner

variable {unit : SourceUnit} {settings : Settings} {entity : Request} {a b : Assembly}
  {active : List DeclRef} {d x : DeclRef}

/-- The bound on the depth is not noticed, as long as it exceeds the number of types that are not
being resolved yet. -/
theorem resolveWithin_eq (further : TypeRef → Assemble TypeId) (resolving : List TypeRef)
    (t : TypeRef) {depth : Nat} (hdepth : unseen unit.typeRefs resolving < depth) :
    resolveWithin unit entity further depth resolving t = resolve unit entity resolving t := by
  induction resolving, t using resolve.induct unit generalizing depth with
  | case1 resolving t ih =>
    obtain _ | depth := depth
    · exact absurd hdepth (Nat.not_lt_zero _)
    rw [resolveWithin, resolve]
    congr 1
    funext a
    cases a.typeId? t with
    | some id => rfl
    | none =>
      cases hu : unit.type? t with
      | none => rfl
      | some node =>
        dsimp only
        by_cases hr : t ∈ resolving
        · rw [if_pos hr, dif_pos hr]
        · rw [if_neg hr, dif_neg hr]
          -- one type more is under way, so one step less is enough
          have hless := unseen_cons_lt (SourceUnit.mem_typeRefs hu) hr
          have hparts : resolveWithin unit entity further depth (t :: resolving) =
              fun part => resolve unit entity (t :: resolving) part :=
            funext fun part => ih node hu hr part
              (Nat.lt_of_lt_of_le hless (Nat.le_of_lt_succ hdepth))
          rw [hparts]

/-- The declarations under way have an answer. -/
def Answered (active : List DeclRef) (a : Assembly) : Prop :=
  ∀ x ∈ active, ∃ r, a.answer? x = some r

/-- Answers are not lost. -/
theorem Answered.mono (ha : Answered active a) (h : Extends unit a b) : Answered active b := by
  intro x hx
  obtain ⟨r, hr⟩ := ha x hx
  exact ⟨r, h.answer hr⟩

/-- A declaration that begins is answered by its slot. -/
theorem Answered.begin (ha : Answered active a) (d : DeclRef) :
    Answered (d :: active) (a.begin d).2 := by
  intro x hx
  rw [answer?_begin]
  by_cases hxd : x = d
  · exact ⟨_, if_pos hxd⟩
  · rw [if_neg hxd]
    exact ha x ((List.mem_cons.mp hx).resolve_left hxd)

/-- Constructions with requests that do the same do the same. -/
theorem run_construct_congr {build build' : Assemble Entity}
    (h : build.run (a.begin d).2 = build'.run (a.begin d).2) :
    (construct d build).run a = (construct d build').run a := by
  rw [run_construct, run_construct, h]

/-- What is under way has an answer, so a request never goes round in circles. -/
theorem requestWithin_run (further : Request) (active : List DeclRef) (d : DeclRef)
    (owner : String) {depth : Nat} (hdepth : unseen unit.declRefs active < depth)
    (ha : Answered active a) :
    (request unit settings active d owner).run a =
      (requestWithin unit settings further depth d owner).run a := by
  induction active, d, owner using request.induct unit generalizing depth a with
  | case1 active d owner ih =>
    obtain _ | depth := depth
    · exact absurd hdepth (Nat.not_lt_zero _)
    rw [requestWithin, run_get_bind]
    cases hd : a.answer? d with
    | some r =>
      rw [request_of_answer hd]
      exact (run_ofExcept r a.countHit).symm
    | none =>
      cases hu : unit.declaration? d with
      | none =>
        rw [request_of_dangling hd hu]
        rfl
      | some decl =>
        have hactive : d ∉ active := by
          intro hmem
          obtain ⟨r, hr⟩ := ha d hmem
          cases hd.symm.trans hr
        have hless := unseen_cons_lt (SourceUnit.mem_declRefs hu) hactive
        rw [request_of_fresh hd hu hactive]
        refine run_construct_congr (Agrees.build (I := Answered (d :: active)) (fun _ _ _ h => h)
          (fun other owner b hb => ⟨?_, ?_⟩) d decl owner _ (ha.begin d)).1
        · exact ih decl hu hactive other owner
            (Nat.lt_of_lt_of_le hless (Nat.le_of_lt_succ hdepth)) hb
        · exact hb.mono (request_extending unit settings _ other owner b)

theorem unseen_le {α : Type} [DecidableEq α] (all seen : List α) : unseen all seen ≤ all.length :=
  List.length_filter_le _ _

/-- A call nests no deeper than there are declarations, from whatever state. -/
theorem stepWithin_run (further : Request) (c : Call) (a : Assembly) :
    (c.stepWithin unit settings further unit.declarations.size).run a =
      (c.step unit settings).run a := by
  have hall (seen : List DeclRef) : unseen unit.declRefs seen ≤ unit.declarations.size :=
    Nat.le_trans (unseen_le _ _) (unit.length_declRefs_le)
  unfold Call.stepWithin Call.step
  by_cases hanew : c.anew
  · rw [if_pos hanew, if_pos hanew]
    unfold recreate
    cases hu : unit.declaration? c.decl with
    | none => rfl
    | some decl =>
      -- `c.decl` is under way from the beginning
      have hless : unseen unit.declRefs [c.decl] < unseen unit.declRefs [] :=
        unseen_cons_lt (SourceUnit.mem_declRefs hu) List.not_mem_nil
      refine (run_construct_congr (Agrees.build (I := Answered [c.decl]) (fun _ _ _ h => h)
        (fun other owner b hb => ⟨?_, ?_⟩) c.decl decl c.owner _ ?_).1).symm
      · exact requestWithin_run further [c.decl] other owner (Nat.lt_of_lt_of_le hless (hall [])) hb
      · exact hb.mono (request_extending unit settings _ other owner b)
      · have hnone : Answered [] a := nofun
        exact hnone.begin c.decl
  · rw [if_neg hanew, if_neg hanew]
    exact (requestWithin_run further [] c.decl c.owner (Nat.lt_succ_of_le (hall [])) nofun).symm

/-! ### Counts -/

/-- The declarations that have failed. -/
def failedRefs (unit : SourceUnit) (a : Assembly) : List DeclRef :=
  unit.declRefs.filter fun d => (a.answer? d).any fun r => !r.isOk

/-- What has failed is declared and remembered as a failure. -/
theorem mem_failedRefs : d ∈ failedRefs unit a ↔
    d ∈ unit.declRefs ∧ ∃ f, a.answer? d = some (.error f) := by
  unfold failedRefs
  rw [List.mem_filter]
  refine and_congr_right fun _ => ?_
  rcases a.answer? d with _ | f | id <;> simp [Except.isOk, Except.toBool]

/-- Each declaration is counted once. -/
theorem nodup_failedRefs (unit : SourceUnit) (a : Assembly) : (failedRefs unit a).Nodup :=
  unit.nodup_declRefs.filter _

/-- The count looks at the failures that are remembered, and at nothing else. -/
theorem failedRefs_congr
    (h : ∀ d f, b.answer? d = some (.error f) ↔ a.answer? d = some (.error f)) :
    failedRefs unit b = failedRefs unit a := by
  refine List.filter_congr fun d _ => ?_
  have hd := h d
  rcases ha : a.answer? d with _ | f | id <;> rcases hb : b.answer? d with _ | g | id' <;>
    simp_all [Except.isOk, Except.toBool]

/-- Only what is ready is forgotten, so that a failed construction adds its own failure to those
from inside. -/
theorem failure_abandon_iff (hext : Extends unit (a.begin d).2 b) {f g : Failure} :
    (b.abandon a.mark d f).answer? x = some (.error g) ↔
      x = d ∧ g = f ∨ b.answer? x = some (.error g) := by
  by_cases hxd : x = d
  · have hslot : b.answer? d = some (.ok (a.begin d).1) :=
      hext.answer (by rw [answer?_begin, if_pos rfl])
    rw [answer?_abandon, if_pos hxd, hxd, hslot]
    simp [eq_comm]
  · constructor
    · exact fun hx => .inr (answer?_of_answer?_abandon hext hxd hx).1
    · rintro (⟨hxd', -⟩ | hx)
      · exact absurd hxd' hxd
      · obtain ⟨new, hnew, -⟩ := begun_eq hext
        rw [answer?_abandon, if_neg hxd, answer?_forgetSince hnew _ rfl, if_neg, hx]
        rintro ⟨-, hx'⟩
        obtain ⟨id, hid⟩ := isReady_iff.mp hx'
        cases hx.symm.trans hid

/-- A construction that fails is one failure more. -/
theorem failedRefs_abandon (hdecl : d ∈ unit.declRefs) (hext : Extends unit (a.begin d).2 b)
    (f : Failure) : (failedRefs unit (b.abandon a.mark d f)).Perm (d :: failedRefs unit b) := by
  have hnotin : d ∉ failedRefs unit b := by
    intro hmem
    obtain ⟨-, g, hg⟩ := mem_failedRefs.mp hmem
    have hslot : b.answer? d = some (.ok (a.begin d).1) :=
      hext.answer (by rw [answer?_begin, if_pos rfl])
    cases hg.symm.trans hslot
  refine (List.perm_ext_iff_of_nodup (nodup_failedRefs unit _)
    (List.nodup_cons.mpr ⟨hnotin, nodup_failedRefs unit b⟩)).mpr fun x => ?_
  rw [List.mem_cons, mem_failedRefs, mem_failedRefs]
  constructor
  · rintro ⟨hx, g, hg⟩
    rcases (failure_abandon_iff hext).mp hg with ⟨hxd, -⟩ | hg
    · exact .inl hxd
    · exact .inr ⟨hx, g, hg⟩
  · rintro (rfl | ⟨hx, g, hg⟩)
    · exact ⟨hdecl, f, (failure_abandon_iff hext).mpr (.inl ⟨rfl, rfl⟩)⟩
    · exact ⟨hx, g, (failure_abandon_iff hext).mpr (.inr hg)⟩

/-- What the counts have to do with the journal and the answers. -/
structure Counted (unit : SourceUnit) (a : Assembly) : Prop where
  nodup : a.begun.Nodup
  declared : ∀ d ∈ a.begun, d ∈ unit.declRefs
  ready : ∀ d ∈ a.begun, Ready a d
  failures : a.tally.failures = (failedRefs unit a).length
  constructions :
    a.tally.constructions ≤ a.begun.length + unit.declRefs.length * a.tally.failures

namespace Counted

theorem empty (unit : SourceUnit) : Counted unit .empty where
  nodup := List.nodup_nil
  declared := nofun
  ready := nofun
  failures := by
    have h : failedRefs unit .empty = [] := List.filter_eq_nil_iff.mpr fun _ _ => nofun
    rw [h]
    rfl
  constructions := Nat.zero_le _

/-- A declaration that begins was neither begun nor failed. -/
theorem begin (ha : Counted unit a) (hd : a.answer? d = none) (hdecl : d ∈ unit.declRefs) :
    Counted unit (a.begin d).2 := by
  have hnew : d ∉ a.begun := by
    intro hmem
    obtain ⟨id, hid⟩ := ha.ready d hmem
    cases hd.symm.trans hid
  have hsame : failedRefs unit (a.begin d).2 = failedRefs unit a := by
    refine failedRefs_congr fun x f => ?_
    rw [answer?_begin]
    by_cases hxd : x = d
    · rw [if_pos hxd, hxd, hd]
      exact ⟨nofun, nofun⟩
    · rw [if_neg hxd]
  refine ⟨List.nodup_cons.mpr ⟨hnew, ha.nodup⟩, ?_, ?_, ?_, ?_⟩
  · exact List.forall_mem_cons.mpr ⟨hdecl, ha.declared⟩
  · intro x hx
    by_cases hxd : x = d
    · exact ⟨_, by rw [answer?_begin, if_pos hxd]⟩
    · obtain ⟨id, hid⟩ := ha.ready x ((List.mem_cons.mp hx).resolve_left hxd)
      exact ⟨id, by rw [answer?_begin, if_neg hxd, hid]⟩
  · rw [hsame]
    exact ha.failures
  · have h := ha.constructions
    show a.tally.constructions + 1 ≤ (a.begun.length + 1) + _ * a.tally.failures
    omega

/-- No more constructions have begun than there are declarations. -/
theorem length_begun_le (ha : Counted unit a) : a.begun.length ≤ unit.declRefs.length :=
  ha.nodup.length_le_of_subset ha.declared

/-- A failure is one more declaration that has failed, and makes up for what is taken off the
journal. -/
theorem abandon (ha : Counted unit a) (hd : a.answer? d = none)
    (hdecl : d ∈ unit.declRefs) (hext : Extends unit (a.begin d).2 b) (hb : Counted unit b)
    (f : Failure) : Counted unit (b.abandon a.mark d f) := by
  obtain ⟨hready, -, hbegun, -⟩ := abandon_restores hext hd f
  refine ⟨?_, ?_, ?_, ?_, ?_⟩
  · rw [hbegun]
    exact ha.nodup
  · rw [hbegun]
    exact ha.declared
  · rw [hbegun]
    intro x hx
    obtain ⟨id, hid⟩ := ha.ready x hx
    exact ⟨id, (hready x id).mpr hid⟩
  · show b.tally.failures + 1 = _
    rw [(failedRefs_abandon hdecl hext f).length_eq, List.length_cons, hb.failures]
  · have h := hb.constructions
    have hlen := hb.length_begun_le
    show b.tally.constructions ≤ _ + unit.declRefs.length * (b.tally.failures + 1)
    rw [Nat.mul_succ]
    omega

/-- A construction keeps the count, whether it succeeds or fails. -/
theorem construct (ha : Counted unit a) (hd : a.answer? d = none) (hdecl : d ∈ unit.declRefs)
    {build : Assemble Entity} (hextending : Extending unit build)
    (hbuild : Agrees (Counted unit) Entity build build) :
    Counted unit ((Assembly.construct d build).run a).2 := by
  have hext := hextending (a.begin d).2
  have hb := (hbuild _ (ha.begin hd hdecl)).2
  rw [run_construct]
  rcases hrun : build.run (a.begin d).2 with ⟨f | e, b⟩
  · rw [hrun] at hext hb
    exact ha.abandon hd hdecl hext hb f
  · rw [hrun] at hb
    exact { hb with }

end Counted

/-- A request keeps the counts right. -/
theorem request_counted (active : List DeclRef) (d : DeclRef) (owner : String) :
    Agrees (Counted unit) EntityId (request unit settings active d owner)
      (request unit settings active d owner) := by
  refine .request (fun a ha => { ha with }) (fun active d decl owner a hd hu ih ha => ?_) active d
    owner
  refine ha.construct hd (SourceUnit.mem_declRefs hu)
    (build_extending (request_extending unit settings (d :: active)) d decl owner) ?_
  exact .build (fun _ _ _ h => { h with }) ih d decl owner

/-- Requests from outside keep the count. -/
theorem counted_afterCreates (unit : SourceUnit) (settings : Settings)
    (requests : List (DeclRef × String)) : Counted unit (afterCreates unit settings requests) :=
  afterCreates_induction (.empty unit) fun r _ a ha => (request_counted [] r.1 r.2 a ha).2

/-- A declaration that has failed stays so. -/
theorem failedRefs_subset (h : Extends unit a b) : failedRefs unit a ⊆ failedRefs unit b := by
  intro d hd
  obtain ⟨hmem, f, hf⟩ := mem_failedRefs.mp hd
  exact mem_failedRefs.mpr ⟨hmem, f, h.answer hf⟩

/-- **Requests end, and how much they construct.** Whatever refers to what in a unit, a call gives
the same as one that goes no deeper than there are declarations, and a resolution the same as one
that goes no deeper than there are types: what lies below is never asked for. In a run of requests a
declaration fails at most once, so that as many have failed as there have been failures; and there
are at most as many constructions for each declaration as there have been failures, and one. -/
theorem requests_end (unit : SourceUnit) (settings : Settings) :
    (∀ further c a, (Call.stepWithin unit settings further unit.declarations.size c).run a =
      (Call.step unit settings c).run a) ∧
    (∀ entity further t,
      resolveWithin unit entity further (unit.types.size + 1) [] t = resolve unit entity [] t) ∧
    ∀ requests, let a := afterCreates unit settings requests
      a.tally.failures = (failedRefs unit a).length ∧
      (∀ r : DeclRef × String, failedRefs unit a ⊆
        failedRefs unit (afterCreates unit settings (requests ++ [r]))) ∧
      a.tally.failures ≤ unit.declarations.size ∧
      a.tally.constructions ≤ unit.declarations.size * (a.tally.failures + 1) := by
  refine ⟨stepWithin_run, fun entity further t => ?_, fun requests => ?_⟩
  · refine resolveWithin_eq further [] t (Nat.lt_succ_of_le ?_)
    exact Nat.le_trans (unseen_le _ _) (unit.length_typeRefs_le)
  · have hcounted := counted_afterCreates unit settings requests
    have hsize := unit.length_declRefs_le
    refine ⟨hcounted.failures, fun r => ?_, ?_, ?_⟩
    · unfold afterCreates
      rw [List.foldl_append]
      exact failedRefs_subset (request_extending unit settings [] r.1 r.2 _)
    · rw [hcounted.failures]
      exact Nat.le_trans (List.length_filter_le _ _) hsize
    · calc (afterCreates unit settings requests).tally.constructions
        _ ≤ (afterCreates unit settings requests).begun.length +
            unit.declRefs.length * (afterCreates unit settings requests).tally.failures :=
          hcounted.constructions
        _ ≤ unit.declRefs.length +
            unit.declRefs.length * (afterCreates unit settings requests).tally.failures :=
          Nat.add_le_add_right hcounted.length_begun_le _
        _ = unit.declRefs.length *
            ((afterCreates unit settings requests).tally.failures + 1) := by
          rw [Nat.mul_succ, Nat.add_comm]
        _ ≤ unit.declarations.size *
            ((afterCreates unit settings requests).tally.failures + 1) :=
          Nat.mul_le_mul_right _ hsize

end InteropGraph.Assembly
