import InteropGraph.Pipeline
import InteropGraph.Proofs.Assembly.Verdict
import InteropGraph.Proofs.Graph.Modules
import InteropGraph.Proofs.Pass.Accessors
import InteropGraph.Proofs.Pass.Clashes
import InteropGraph.Proofs.Source
import Mathlib.Data.List.Nodup

/-!
# The finished graph

The intake leaves a sound assembly with nothing under construction (`Intake.Sound`). What is live
there is a closed set (`Assembly.Sound.closed`), the passes keep it closed, and so the dump of the
finished graph is closed. The intake lists no entity twice, the passes list nothing new, and the
last pass makes names distinct.
-/

namespace InteropGraph

/-! ### Intake -/

/-- Different declarations have different entities. -/
theorem Assembly.Sound.ready_inj {unit : SourceUnit} {settings : Settings} {a : Assembly}
    (h : Assembly.Sound unit settings [] a) {d d' : DeclRef} {id : EntityId}
    (hd : a.answer? d = some (.ok id)) (hd' : a.answer? d' = some (.ok id)) : d = d' := by
  obtain ⟨_, e, he, hc⟩ := h.complete_of_answer hd
  obtain ⟨_, hc'⟩ := h.complete_of_entity hd' he
  exact Option.some.inj (hc.source.symm.trans hc'.source)

/-- What is live is closed when nothing is under construction. -/
theorem Assembly.Sound.closed {unit : SourceUnit} {settings : Settings} {a : Assembly}
    (h : Assembly.Sound unit settings [] a) : a.graph.Closed {n | Assembly.Live unit a n} where
  references n hn := by
    cases n with
    | entity id =>
      obtain ⟨d, hd⟩ := hn
      obtain ⟨_, e, he, hc⟩ := h.complete_of_answer hd
      exact ⟨e.detail.references, Graph.references?_entity he, hc.describes.live_references⟩
    | type id =>
      obtain ⟨t, ht⟩ := hn
      obtain ⟨type, htype⟩ := ht.exists_type
      exact ⟨type.references, Graph.references?_type htype, ht.live_references htype⟩
  distinct {i e j e' source} hi hj he he' hs hs' := by
    -- the source of a live entity is the declaration that it answers
    have hanswer {k : EntityId} {e : Entity} (hk : Assembly.Live unit a (.entity k))
        (he : a.graph.entity? k = some e) (hs : e.source = some source) :
        a.answer? source = some (.ok k) := by
      obtain ⟨d, hd⟩ := hk
      obtain ⟨_, hc⟩ := h.complete_of_entity hd he
      obtain rfl : d = source := Option.some.inj (hc.source.symm.trans hs)
      exact hd
    exact Except.ok.inj (Option.some.inj
      ((hanswer hi he hs).symm.trans (hanswer hj he' hs')))

namespace Intake

/-- The state of the intake when the declarations in `done` have been taken in. -/
structure Sound (unit : SourceUnit) (settings : Settings) (done : List DeclRef) (i : Intake) :
    Prop where
  assembly : Assembly.Sound unit settings [] i.assembly
  made : ∀ id ∈ i.made, ∃ d ∈ done, i.assembly.answer? d = some (.ok id)
  nodup : i.made.Nodup

variable {unit : SourceUnit} {settings : Settings} {done : List DeclRef} {i : Intake}

theorem sound_start (unit : SourceUnit) (settings : Settings) : Sound unit settings [] start where
  assembly := .empty unit settings
  made := nofun
  nodup := List.nodup_nil

/-- The three ways that a declaration is taken in: it is excluded, fails, or is made. -/
theorem take_cases (unit : SourceUnit) (settings : Settings) (i : Intake)
    (d : DeclRef × Declaration) :
    ((settings.policy.decide d.2.module d.2.name).included = false ∧ i.take unit settings d =
      { i with report := { i.report with excluded := i.report.excluded + 1 } }) ∨
    ((settings.policy.decide d.2.module d.2.name).included = true ∧ ∃ f a,
      (Assembly.create unit settings d.1 "").run i.assembly = (.error f, a) ∧
        i.take unit settings d = ⟨a, i.made, fail i.report d.2 f⟩) ∨
    ((settings.policy.decide d.2.module d.2.name).included = true ∧ ∃ id a,
      (Assembly.create unit settings d.1 "").run i.assembly = (.ok id, a) ∧
        i.take unit settings d =
          ⟨a, i.made ++ [id], { i.report with created := i.report.created + 1 }⟩) := by
  unfold Intake.take
  cases hpolicy : (settings.policy.decide d.2.module d.2.name).included with
  | false => exact .inl ⟨rfl, rfl⟩
  | true =>
    rcases hrun : (Assembly.create unit settings d.1 "").run i.assembly with ⟨f | id, a⟩
    · exact .inr (.inl ⟨rfl, f, a, rfl, rfl⟩)
    · exact .inr (.inr ⟨rfl, id, a, rfl, rfl⟩)

theorem Sound.take (h : Sound unit settings done i) {d : DeclRef × Declaration}
    (hd : d.1 ∉ done) : Sound unit settings (d.1 :: done) (i.take unit settings d) := by
  have hrequest := Assembly.create_assures h.assembly d.1 ""
  have hold {a : Assembly} (ha : Assembly.Grows i.assembly a) :
      ∀ id ∈ i.made, ∃ x ∈ done, a.answer? x = some (.ok id) := by
    intro id hid
    obtain ⟨x, hx, hr⟩ := h.made id hid
    exact ⟨x, hx, ha.ready hr⟩
  obtain ⟨hgrows, hsound, hok, -⟩ := hrequest
  obtain ⟨-, htake⟩ | ⟨-, f, a, hrun, htake⟩ | ⟨-, id, a, hrun, htake⟩ :=
    take_cases unit settings i d
  · rw [htake]
    refine ⟨h.assembly, fun id hid => ?_, h.nodup⟩
    obtain ⟨x, hx, hr⟩ := h.made id hid
    exact ⟨x, List.mem_cons_of_mem d.1 hx, hr⟩
  · rw [hrun] at hgrows hsound
    rw [htake]
    refine ⟨hsound, fun id hid => ?_, h.nodup⟩
    obtain ⟨x, hx, hr⟩ := hold hgrows id hid
    exact ⟨x, List.mem_cons_of_mem d.1 hx, hr⟩
  · rw [hrun] at hgrows hsound hok
    have hanswer : a.answer? d.1 = some (.ok id) := hok id rfl
    rw [htake]
    refine ⟨hsound, fun other hother => ?_, ?_⟩
    · rcases List.mem_append.mp hother with hother | hother
      · obtain ⟨x, hx, hr⟩ := hold hgrows other hother
        exact ⟨x, List.mem_cons_of_mem d.1 hx, hr⟩
      · obtain rfl := List.mem_singleton.mp hother
        exact ⟨d.1, List.mem_cons_self, hanswer⟩
    · -- an entity that was made before answers another declaration
      refine List.nodup_append.mpr ⟨h.nodup, List.nodup_singleton id, ?_⟩
      rintro other hother _ hid rfl
      obtain rfl := List.mem_singleton.mp hid
      obtain ⟨x, hx, hr⟩ := hold hgrows other hother
      exact hd (hsound.ready_inj hr hanswer ▸ hx)

theorem Sound.foldl (h : Sound unit settings done i) {l : List (DeclRef × Declaration)}
    (hnodup : (l.map Prod.fst).Nodup) (hnew : ∀ d ∈ l.map Prod.fst, d ∉ done) :
    ∃ done', Sound unit settings done' (l.foldl (Intake.take unit settings) i) := by
  induction l generalizing done i with
  | nil => exact ⟨done, h⟩
  | cons d l ih =>
    rw [List.map_cons, List.nodup_cons] at hnodup
    refine ih (h.take (hnew d.1 List.mem_cons_self)) hnodup.2 fun x hx hmem => ?_
    rcases List.mem_cons.mp hmem with rfl | hmem
    · exact hnodup.1 hx
    · exact hnew x (List.mem_cons_of_mem d.1 hx) hmem

theorem sound_run (unit : SourceUnit) (settings : Settings) :
    ∃ done, Sound unit settings done (Intake.run unit settings) :=
  (sound_start unit settings).foldl (unit.sublist_topLevel.nodup unit.nodup_declRefs)
    fun _ _ => List.not_mem_nil

theorem isClosed_draft (unit : SourceUnit) (settings : Settings) :
    (Intake.run unit settings).draft.IsClosed := by
  obtain ⟨done, h⟩ := sound_run unit settings
  refine ⟨_, h.assembly.closed, fun id hid => ?_⟩
  obtain ⟨d, -, hd⟩ := h.made id hid
  exact ⟨d, hd⟩

theorem nodup_listed_finish (unit : SourceUnit) (settings : Settings) :
    (Intake.run unit settings).draft.finish.listed.Nodup := by
  obtain ⟨done, h⟩ := sound_run unit settings
  rw [Draft.listed_finish]
  exact h.nodup.filter _

end Intake

/-! ### Results -/

namespace Bridged

variable {d : Draft}

theorem dump_ofDraft_isClosed (h : d.IsClosed) : (ofDraft d).dump.IsClosed := by
  obtain ⟨L, hL, hlisted⟩ := h
  exact hL.dump_isClosed fun id hid => hlisted id (Modules.mem_of_mem_ids_partition hid)

/-- Entities that are listed under a module have its name for their scope. -/
theorem scopedName?_of_mem {module : String} {ids : List EntityId}
    (h : (module, ids) ∈ (ofDraft d).modules) {id : EntityId} (hid : id ∈ ids) :
    id ∈ d.listed ∧ Draft.scopedName? d.graph id = some (module, d.graph.bridgeName id) := by
  rw [Modules.eq_filter_of_mem_partition h] at hid
  obtain ⟨hlisted, hmodule⟩ := List.mem_filter.mp hid
  obtain ⟨e, he, rfl⟩ := Option.map_eq_some_iff.mp (of_decide_eq_true hmodule)
  refine ⟨hlisted, ?_⟩
  unfold Draft.scopedName? Graph.bridgeName
  rw [he]
  rfl

theorem nodup_names_resolveClashes (hnodup : d.resolveClashes.listed.Nodup) {module : String}
    {ids : List EntityId} (h : (module, ids) ∈ (ofDraft d.resolveClashes).modules) :
    (ids.map d.resolveClashes.graph.bridgeName).Nodup := by
  have hids : ids.Nodup := by
    rw [Modules.eq_filter_of_mem_partition h]
    exact hnodup.filter _
  refine List.Nodup.map_on ?_ hids
  intro i hi j hj hname
  obtain ⟨hilisted, hiname⟩ := scopedName?_of_mem h hi
  obtain ⟨hjlisted, hjname⟩ := scopedName?_of_mem h hj
  rw [hname] at hiname
  exact Draft.resolveClashes_apart hilisted hjlisted hiname hjname

theorem clash?_eq_none {b : Bridged}
    (h : ∀ module ids, (module, ids) ∈ b.modules → (ids.map b.graph.bridgeName).Nodup) :
    b.clash? = none :=
  Graph.clash?_eq_none h

/-- The last of the five passes leaves no clash, whatever the others have done. -/
theorem names_distinct_finish (h : d.finish.listed.Nodup) :
    (∀ module ids, (module, ids) ∈ (ofDraft d.finish).modules →
      (ids.map (ofDraft d.finish).graph.bridgeName).Nodup) ∧
    (ofDraft d.finish).clash? = none := by
  have hnames : ∀ module ids, (module, ids) ∈ (ofDraft d.finish).modules →
      (ids.map (ofDraft d.finish).graph.bridgeName).Nodup :=
    fun _ _ => nodup_names_resolveClashes h
  exact ⟨hnames, clash?_eq_none hnames⟩

end Bridged

/-- **Closed dumps.** Whatever fails on the way, the dump of a finished graph mentions only what is
in it, and holds no declaration twice. -/
theorem dump_bridge_isClosed (unit : SourceUnit) (settings : Settings) :
    (unit.bridge settings).dump.IsClosed :=
  Bridged.dump_ofDraft_isClosed (Intake.isClosed_draft unit settings).finish

/-- **Distinct names.** No two entities of a module have the same bridge name, so that the check for
clashes passes; and the search for a free name ends with the first candidate that is not taken,
after no more candidates than there are taken names, and one. -/
theorem bridge_names_distinct (unit : SourceUnit) (settings : Settings) :
    (∀ module ids, (module, ids) ∈ (unit.bridge settings).modules →
      (ids.map (unit.bridge settings).graph.bridgeName).Nodup) ∧
    (unit.bridge settings).clash? = none ∧
    ∀ taken stem, ∃ n, 1 ≤ n ∧ n ≤ taken.length + 1 ∧
      freeName taken stem = candidateName stem n ∧ candidateName stem n ∉ taken ∧
        ∀ k, 1 ≤ k → k < n → candidateName stem k ∈ taken := by
  obtain ⟨hnames, hclash⟩ :=
    Bridged.names_distinct_finish (Intake.nodup_listed_finish unit settings)
  exact ⟨hnames, hclash, freeName_spec⟩

end InteropGraph
