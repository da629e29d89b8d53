import InteropGraph.Proofs.Assembly.Origins
import InteropGraph.Proofs.Pass.Retains
import InteropGraph.Proofs.Pipeline
import Mathlib.Algebra.GroupWithZero.Nat

/-!
# What a finished graph presents

The intake counts every top-level declaration once, and has an entity for each one that the policy
includes and that can be made, in their order (`Intake.Accounts`). What can be made is the same at
any time, so that it may be tried with nothing made before (`SourceUnit.made`). The passes take the
categories off the list and keep what comes from declarations; the partition puts each entity that
is left under its module.
-/

namespace InteropGraph

/-! ### What can be made -/

/-- A request succeeds from any sound state if it succeeds from some. -/
theorem Assembly.Sound.create_isOk_iff {unit : SourceUnit} {settings : Settings} {a : Assembly}
    (ha : Assembly.Sound unit settings [] a) (d : DeclRef) (owner : String) :
    ((Assembly.create unit settings d owner).run a).1.isOk = true ↔
      Assembly.Constructible unit settings d := by
  have h := Assembly.create_assures ha d owner
  rcases hrun : ((Assembly.create unit settings d owner).run a).1 with f | id
  · exact ⟨nofun, fun hd => absurd hd (h.failure f hrun)⟩
  · exact ⟨fun _ => ⟨_, h.invariant.consistent, id, h.success id hrun⟩, fun _ => rfl⟩

/-- Whether the policy includes a declaration. -/
def Settings.includes (settings : Settings) (decl : Declaration) : Bool :=
  (settings.policy.decide decl.module decl.name).included

/-- Whether a declaration is that of a category. -/
def Declaration.isCategory (decl : Declaration) : Bool :=
  decl.shape.entityKind = .category

namespace SourceUnit

/-- Whether the policy includes a declaration and its entity can be made, with nothing made
before. -/
def canMake (unit : SourceUnit) (settings : Settings) (d : DeclRef × Declaration) : Bool :=
  settings.includes d.2 && ((Assembly.create unit settings d.1 "").run .empty).1.isOk

/-- The top-level declarations that are made into entities, in order. -/
def made (unit : SourceUnit) (settings : Settings) : List (DeclRef × Declaration) :=
  unit.topLevel.filter (unit.canMake settings)

/-- Those of them that are listed: categories are not. -/
def presented (unit : SourceUnit) (settings : Settings) : List (DeclRef × Declaration) :=
  (unit.made settings).filter fun d => !d.2.isCategory

end SourceUnit

/-- The entity of a declaration is at a place. -/
def Graph.Holds (g : Graph) (d : DeclRef × Declaration) (id : EntityId) : Prop :=
  ∃ e, g.entity? id = some e ∧ e.IsOf d.1 d.2

theorem Graph.Retains.holds {g g' : Graph} (h : g.Retains g') {d : DeclRef × Declaration}
    {id : EntityId} (hd : g.Holds d id) : g'.Holds d id := by
  obtain ⟨e, he, hof⟩ := hd
  obtain ⟨e', he', hsame⟩ := h.kept he
  exact ⟨e', he', hsame.source.trans hof.source, hsame.module.trans hof.module,
    hsame.kind.trans hof.kind⟩

/-! ### Intake -/

namespace Intake

/-- What the intake knows when the declarations in `done` have been taken in. -/
structure Accounts (unit : SourceUnit) (settings : Settings)
    (done : List (DeclRef × Declaration)) (i : Intake) : Prop where
  sound : Assembly.Sound unit settings [] i.assembly
  faithful : i.assembly.graph.IsFaithful unit
  made : List.Forall₂ (fun d id => i.assembly.answer? d.1 = some (.ok id))
    (done.filter (unit.canMake settings)) i.made
  created : i.report.created = i.made.length
  counted : i.report.excluded + i.report.created + i.report.skipped + i.report.failed =
    done.length

variable {unit : SourceUnit} {settings : Settings} {done : List (DeclRef × Declaration)}
  {i : Intake}

theorem accounts_start (unit : SourceUnit) (settings : Settings) :
    Accounts unit settings [] start where
  sound := .empty unit settings
  faithful _ _ _ _ he := by
    rw [start, Assembly.empty, Graph.empty, Graph.entity?] at he
    cases he
  made := .nil
  created := rfl
  counted := rfl

/-- A failure is counted once, whatever it is. -/
theorem counted_fail (r : Report) (decl : Declaration) (f : Failure) :
    (fail r decl f).created = r.created ∧
      (fail r decl f).excluded + (fail r decl f).created + (fail r decl f).skipped +
        (fail r decl f).failed = r.excluded + r.created + r.skipped + r.failed + 1 := by
  unfold fail
  split
  · exact ⟨rfl, by dsimp only; omega⟩
  · exact ⟨rfl, by dsimp only; omega⟩

theorem Accounts.canMake_eq (h : Accounts unit settings done i) (d : DeclRef × Declaration) :
    unit.canMake settings d = (settings.includes d.2 &&
      ((Assembly.create unit settings d.1 "").run i.assembly).1.isOk) := by
  have hempty := (Assembly.Sound.empty unit settings).create_isOk_iff d.1 ""
  have hnow := h.sound.create_isOk_iff d.1 ""
  unfold SourceUnit.canMake
  rw [Bool.eq_iff_iff.mpr (hempty.trans hnow.symm)]

theorem Accounts.take (h : Accounts unit settings done i) (d : DeclRef × Declaration) :
    Accounts unit settings (done ++ [d]) (i.take unit settings d) := by
  have hcanMake := h.canMake_eq d
  have hcounted := h.counted
  have hlength : (done ++ [d]).length = done.length + 1 := List.length_append
  have hfaithful : ((Assembly.create unit settings d.1 "").run i.assembly).2.graph.IsFaithful
    unit := Assembly.request_faithful unit settings [] d.1 "" h.faithful
  obtain ⟨hgrows, hsound, hok, -⟩ := Assembly.create_assures h.sound d.1 ""
  unfold Settings.includes at hcanMake
  obtain ⟨hpolicy, htake⟩ | ⟨hpolicy, f, a, hrun, htake⟩ | ⟨hpolicy, id, a, hrun, htake⟩ :=
    take_cases unit settings i d
  · rw [hpolicy, Bool.false_and] at hcanMake
    rw [htake]
    refine ⟨h.sound, h.faithful, ?_, h.created, ?_⟩
    · rw [List.filter_append, List.filter_singleton, hcanMake]
      exact (List.append_nil _).symm ▸ h.made
    · rw [hlength, ← hcounted]
      dsimp only
      omega
  · rw [hrun] at hgrows hsound hfaithful
    rw [hpolicy, Bool.true_and, hrun] at hcanMake
    obtain ⟨hcreated, hcount⟩ := counted_fail i.report d.2 f
    rw [htake]
    refine ⟨hsound, hfaithful, ?_, hcreated.trans h.created, ?_⟩
    · rw [List.filter_append, List.filter_singleton, hcanMake]
      exact (List.append_nil _).symm ▸ h.made.imp fun _ _ hx => hgrows.ready hx
    · rw [hlength, ← hcounted]
      exact hcount
  · rw [hrun] at hgrows hsound hok hfaithful
    rw [hpolicy, Bool.true_and, hrun] at hcanMake
    rw [htake]
    refine ⟨hsound, hfaithful, ?_, ?_, ?_⟩
    · rw [List.filter_append, List.filter_singleton, hcanMake]
      refine List.rel_append (h.made.imp fun _ _ hx => hgrows.ready hx) ?_
      exact .cons (hok id rfl) .nil
    · rw [List.length_append, ← h.created]
      rfl
    · rw [hlength, ← hcounted]
      dsimp only
      omega

theorem Accounts.foldl (h : Accounts unit settings done i) (l : List (DeclRef × Declaration)) :
    Accounts unit settings (done ++ l) (l.foldl (Intake.take unit settings) i) := by
  induction l generalizing done i with
  | nil => exact (List.append_nil done).symm ▸ h
  | cons d l ih =>
    rw [← List.singleton_append, ← List.append_assoc]
    exact ih (h.take d)

theorem accounts_foldl (unit : SourceUnit) (settings : Settings)
    (l : List (DeclRef × Declaration)) :
    Accounts unit settings l (l.foldl (Intake.take unit settings) start) :=
  (accounts_start unit settings).foldl l

/-- What has been made holds the entities of what can be made, in order. -/
theorem Accounts.holds (h : Accounts unit settings done i)
    (hdone : ∀ d ∈ done, unit.declaration? d.1 = some d.2) :
    List.Forall₂ i.assembly.graph.Holds (done.filter (unit.canMake settings)) i.made := by
  have hdeclared : ∀ d ∈ done.filter (unit.canMake settings), unit.declaration? d.1 = some d.2 :=
    fun d hd => hdone d (List.mem_filter.mp hd).1
  refine ((List.forall₂_and_left _ _).mpr ⟨hdeclared, h.made⟩).imp ?_
  rintro d id ⟨hdecl, hanswer⟩
  obtain ⟨_, e, he, hc⟩ := h.sound.complete_of_answer hanswer
  exact ⟨e, he, h.faithful id e d.1 d.2 he hc.source hdecl⟩

end Intake

/-! ### Presentation -/

/-- A place that holds the entity of a category is one of a category, and no other is. -/
theorem Draft.category?_isNone_of_holds {d : Draft} {x : DeclRef × Declaration} {id : EntityId}
    (h : d.graph.Holds x id) : (d.category? id).isNone = !x.2.isCategory := by
  obtain ⟨e, he, hof⟩ := h
  have hkind := hof.kind
  unfold Draft.category? Declaration.isCategory
  rw [he, ← hkind, Option.bind_some]
  unfold Entity.category? Entity.kind
  cases e.detail <;> rfl

theorem Graph.topModule?_of_holds {g : Graph} {x : DeclRef × Declaration} {id : EntityId}
    (h : g.Holds x id) : g.topModule? id = some (topLevelModule x.2.module) := by
  obtain ⟨e, he, hof⟩ := h
  rw [Graph.topModule?, he, ← hof.module]
  rfl

/-- A finished graph presents the declarations of a unit: it counts each of them once, and lists
the entities of those that are made and are no categories, each once and where it belongs. -/
structure Bridged.Presents (b : Bridged) (unit : SourceUnit) (settings : Settings) : Prop where
  counted : b.report.excluded + b.report.created + b.report.skipped + b.report.failed =
    unit.topLevel.length
  created : b.report.created = (unit.made settings).length
  /-- No module has two entries. -/
  modules : (b.modules.map Prod.fst).Nodup
  /-- The entry of a module holds the entities of what is presented under it, in the order of
  declarations, and nothing else. -/
  entry : ∀ module ids, (module, ids) ∈ b.modules → List.Forall₂ b.graph.Holds
    ((unit.presented settings).filter fun d => topLevelModule d.2.module = module) ids
  /-- What is presented is listed once, under its module; there is no other entity of it. -/
  once : ∀ d ∈ unit.presented settings, ∃ id ids, (topLevelModule d.2.module, ids) ∈ b.modules ∧
    id ∈ ids ∧ b.modules.ids.count id = 1 ∧ b.graph.Holds d id ∧
      (∃ e, (id, e) ∈ b.dump.entities) ∧
        ∀ other e, (other, e) ∈ b.dump.entities → e.source = some d.1 → other = id
  /-- The sizes of the modules add up to what has been made, less the categories. -/
  size : (b.modules.map fun entry => entry.2.length).sum +
    ((unit.made settings).filter fun d => d.2.isCategory).length = b.report.created

namespace Draft

variable {unit : SourceUnit} {settings : Settings} {i : Intake}

/-- What is listed in the end holds the entities of what is presented, in order. -/
theorem listed_finish_holds (h : i.Accounts unit settings unit.topLevel) :
    List.Forall₂ i.draft.finish.graph.Holds (unit.presented settings) i.draft.finish.listed := by
  have hmade := h.holds fun _ hd => (SourceUnit.mem_topLevel_iff.mp hd).1
  -- the categories are found after the first pass
  have hboth : List.Forall₂ (fun d id => i.draft.finish.graph.Holds d id ∧
      i.draft.applyReserved.graph.Holds d id) (unit.made settings) i.made :=
    hmade.imp fun _ _ hd => ⟨(retains_finish i.draft).graph.holds hd,
      (retains_applyReserved i.draft).graph.holds hd⟩
  rw [listed_finish]
  refine (List.rel_filter (fun d id hd => ?_) hboth).imp fun _ _ hd => hd.1
  show (!d.2.isCategory) = true ↔ (i.draft.applyReserved.category? id).isNone = true
  rw [category?_isNone_of_holds hd.2]

end Draft

namespace Bridged

variable {unit : SourceUnit} {settings : Settings} {d : Draft}

/-- A partition of what holds the presented declarations sorts them by module. -/
theorem entry_of_holds
    (hlisted : List.Forall₂ d.graph.Holds (unit.presented settings) d.listed) {module : String}
    {ids : List EntityId} (h : (module, ids) ∈ (ofDraft d).modules) :
    List.Forall₂ (ofDraft d).graph.Holds
      ((unit.presented settings).filter fun x => topLevelModule x.2.module = module) ids := by
  rw [Modules.eq_filter_of_mem_partition h]
  refine List.rel_filter (fun x id (hx : d.graph.Holds x id) => ?_) hlisted
  show decide (topLevelModule x.2.module = module) = true ↔
    decide (d.graph.topModule? id = some module) = true
  rw [decide_eq_true_iff, decide_eq_true_iff, Graph.topModule?_of_holds hx, Option.some_inj]

theorem length_ids_of_holds
    (hlisted : List.Forall₂ d.graph.Holds (unit.presented settings) d.listed)
    (hnodup : d.listed.Nodup) :
    (ofDraft d).modules.ids.length = (unit.presented settings).length := by
  have hall : (d.listed.filter fun id => (d.graph.topModule? id).isSome) = d.listed := by
    refine List.filter_eq_self.mpr fun id hid => ?_
    obtain ⟨x, -, hx⟩ := hlisted.exists_left hid
    rw [Graph.topModule?_of_holds hx]
    rfl
  have hperm := Modules.ids_partition_perm d.graph.topModule? hnodup
  rw [hall] at hperm
  exact hperm.length_eq.trans hlisted.length_eq.symm

theorem once_of_holds
    (hlisted : List.Forall₂ d.graph.Holds (unit.presented settings) d.listed)
    (hnodup : d.listed.Nodup) (hclosed : (ofDraft d).dump.IsClosed) :
    ∀ x ∈ unit.presented settings, ∃ id ids,
      (topLevelModule x.2.module, ids) ∈ (ofDraft d).modules ∧ id ∈ ids ∧
        (ofDraft d).modules.ids.count id = 1 ∧ (ofDraft d).graph.Holds x id ∧
          (∃ e, (id, e) ∈ (ofDraft d).dump.entities) ∧ ∀ other e,
            (other, e) ∈ (ofDraft d).dump.entities → e.source = some x.1 → other = id := by
  intro x hx
  obtain ⟨id, hid, e, he, hof⟩ := hlisted.exists_right hx
  have hholds : d.graph.Holds x id := ⟨e, he, hof⟩
  have hmodule := Graph.topModule?_of_holds hholds
  have hentry := Modules.mem_partition hid hmodule
  have hmem : id ∈ d.listed.filter fun id => d.graph.topModule? id =
      some (topLevelModule x.2.module) := List.mem_filter.mpr ⟨hid, decide_eq_true hmodule⟩
  have hids : id ∈ (ofDraft d).modules.ids := List.mem_flatMap.mpr ⟨_, hentry, hmem⟩
  have hcount : (ofDraft d).modules.ids.count id = 1 :=
    List.count_eq_one_of_mem (Modules.nodup_ids_partition hnodup) hids
  -- what is listed is in the dump, and the dump holds no declaration twice
  have hdump : (id, e) ∈ (ofDraft d).dump.entities :=
    Graph.mem_dump_entities.mpr ⟨he, .root hids (Graph.references?_entity he)⟩
  refine ⟨id, _, hentry, hmem, hcount, hholds, ⟨e, hdump⟩, fun other e' hother hs => ?_⟩
  exact hclosed.distinct other e' id e x.1 hother hdump hs hof.source

theorem report_ofDraft (d : Draft) : (ofDraft d).report = d.report := rfl

/-- The passes and the partition present what the intake has made. -/
theorem presents_of_accounts {i : Intake} (h : i.Accounts unit settings unit.topLevel)
    (hclosed : i.draft.IsClosed) (hnodup : i.draft.finish.listed.Nodup) :
    (ofDraft i.draft.finish).Presents unit settings := by
  have hlisted := Draft.listed_finish_holds h
  -- the counts are still those of the intake
  have hintake : i.draft.finish.report.intake = i.draft.report.intake :=
    (Draft.retains_finish i.draft).intake
  simp only [Report.intake, Prod.mk.injEq] at hintake
  obtain ⟨hcreated, hskipped, hfailed, hexcluded⟩ := hintake
  have hmade : (ofDraft i.draft.finish).report.created = (unit.made settings).length := by
    rw [SourceUnit.made, h.made.length_eq, ← h.created, report_ofDraft, hcreated]
    rfl
  refine ⟨?_, hmade, Modules.nodup_modules_partition _ _, ?_, ?_, ?_⟩
  · rw [report_ofDraft, hcreated, hskipped, hfailed, hexcluded]
    exact h.counted
  · exact fun module ids hentry => entry_of_holds hlisted hentry
  · exact once_of_holds hlisted hnodup (dump_ofDraft_isClosed hclosed.finish)
  · -- what is made is presented or a category
    have hsplit : (unit.made settings).length =
        ((unit.made settings).filter fun d => d.2.isCategory).length +
          (unit.presented settings).length := List.length_eq_length_filter_add _
    have hsize := length_ids_of_holds hlisted hnodup
    rw [Modules.ids, List.length_flatMap] at hsize
    rw [hmade, hsplit, hsize, Nat.add_comm]

end Bridged

/-- What is made at its turn is what can be made. -/
theorem mem_made_iff {unit : SourceUnit} {settings : Settings}
    {before after : List (DeclRef × Declaration)} {d : DeclRef × Declaration}
    (hsplit : unit.topLevel = before ++ d :: after) :
    d ∈ unit.made settings ↔ settings.includes d.2 = true ∧
      ∃ id, ((Assembly.create unit settings d.1 "").run
        (before.foldl (Intake.take unit settings) .start).assembly).1 = .ok id := by
  have hmem : d ∈ unit.topLevel := by
    rw [hsplit]
    exact List.mem_append_right _ List.mem_cons_self
  rw [SourceUnit.made, List.mem_filter, (Intake.accounts_foldl unit settings before).canMake_eq d,
    Bool.and_eq_true, and_iff_right hmem]
  refine and_congr_right fun _ => ?_
  rcases ((Assembly.create unit settings d.1 "").run
    (before.foldl (Intake.take unit settings) .start).assembly).1 with f | id
  · exact ⟨nofun, nofun⟩
  · exact ⟨fun _ => ⟨id, rfl⟩, fun _ => rfl⟩

end InteropGraph
