import InteropGraph.Proofs.Pass.Cases

/-!
# What stays listed and reported

The passes list nothing new. Only `Draft.foldCategories` changes the list at all: it takes the
categories off. Overloads are reported by `Draft.alignInterface` alone; every other step keeps the
list and the reported overloads as they are (`Draft.SameLists`).
-/

namespace InteropGraph.Draft

/-- The same entities are listed, and the same overloads have been reported. -/
structure SameLists (d d' : Draft) : Prop where
  listed : d'.listed = d.listed
  overloads : d'.report.overloads = d.report.overloads

namespace SameLists

theorem refl (d : Draft) : d.SameLists d := ⟨rfl, rfl⟩

theorem trans {d₁ d₂ d₃ : Draft} (h : d₁.SameLists d₂) (h' : d₂.SameLists d₃) :
    d₁.SameLists d₃ :=
  ⟨h'.listed.trans h.listed, h'.overloads.trans h.overloads⟩

end SameLists

/-- A loop whose steps keep the list keeps it, whatever they report. -/
theorem listed_forListed {step : Draft → EntityId → Draft}
    (hstep : ∀ d id, (step d id).listed = d.listed) (d : Draft) :
    (d.forListed step).listed = d.listed :=
  rel_forListed (R := fun d d' => d'.listed = d.listed) (fun _ => rfl) (fun h h' => h'.trans h)
    hstep d

/-! ### Steps -/

/-- What a container loses is counted in the report, but no overload is reported. -/
theorem Drops.same {d d' : Draft} {id : EntityId} (h : d.Drops id d') : d.SameLists d' := by
  cases h with
  | other => exact .refl d
  | members => exact ⟨rfl, rfl⟩

theorem same_separateProtocol (interfaces : List (String × String)) (d : Draft) (id : EntityId) :
    d.SameLists (d.separateProtocol interfaces id) := by
  obtain h | ⟨e, -, h⟩ := d.separateProtocol_cases interfaces id <;> rw [h]
  · exact .refl d
  · exact ⟨rfl, rfl⟩

/-- Folding one category leaves it listed; it is the pass that takes it off. -/
theorem same_foldCategory (d : Draft) (id : EntityId) : d.SameLists (d.foldCategory id) := by
  obtain h | ⟨_, _, _, -, -, h⟩ := d.foldCategory_cases id <;> rw [h]
  · exact .refl d
  · exact ⟨rfl, rfl⟩

/-- A property that is added is listed by its ancestor, and not by the draft. -/
theorem same_addProperty (template : Entity) (selectors : String × String) (d : Draft)
    (ancestor : EntityId) : d.SameLists (d.addProperty template selectors ancestor) := by
  obtain ⟨h, -⟩ | ⟨_, _, _, _, -, h⟩ := d.addProperty_cases template selectors ancestor <;>
    rw [h]
  · exact .refl d
  · exact ⟨rfl, rfl⟩

theorem same_alignAncestors (d : Draft) (id : EntityId) : d.SameLists (d.alignAncestors id) :=
  alignAncestors_induction (.refl d) fun d' h template selectors a _ =>
    h.trans (same_addProperty template selectors d' a)

/-- An interface with its turn may report overloads, but it lists nothing new. -/
theorem listed_alignInterface (d : Draft) (id : EntityId) :
    (d.alignInterface id).listed = d.listed := by
  have hreport (d : Draft) : (d.reportOverloads id).listed = d.listed := by
    unfold reportOverloads
    cases d.graph.entity? id <;> rfl
  unfold alignInterface
  by_cases hkind : d.graph.kind? id = some .interface
  · rw [if_pos hkind, hreport]
    exact ((same_alignAncestors d id).trans (drops_dropShadowed _ id).same).listed
  · rw [if_neg hkind]

/-! ### Passes -/

/-- Reserved methods go from their containers; nothing else is touched. -/
theorem same_dropReserved (d : Draft) : d.SameLists d.dropReserved :=
  rel_forListed SameLists.refl SameLists.trans (fun d id => (d.drops_dropReservedFrom id).same) d

theorem same_separateProtocols (d : Draft) : d.SameLists d.separateProtocols :=
  rel_forListed SameLists.refl SameLists.trans (same_separateProtocol d.interfaceNames) d

theorem same_applyReserved (d : Draft) : d.SameLists d.applyReserved :=
  (same_dropReserved d).trans (same_separateProtocols d.dropReserved)

/-- The categories go, but what has been reported stays. -/
theorem overloads_foldCategories (d : Draft) :
    d.foldCategories.report.overloads = d.report.overloads :=
  (rel_forListed SameLists.refl SameLists.trans same_foldCategory d).overloads

theorem same_dropRedundant (d : Draft) : d.SameLists d.dropRedundant :=
  rel_forListed SameLists.refl SameLists.trans (fun d id => (d.drops_dropRedundantFrom id).same) d

theorem listed_alignAccessors (d : Draft) : d.alignAccessors.listed = d.listed :=
  listed_forListed listed_alignInterface d

/-- Names are given to what is listed already. -/
theorem same_resolveClashes (d : Draft) : d.SameLists d.resolveClashes :=
  resolveClashes_induction (.refl d) fun _ h _ _ _ => h.trans ⟨rfl, rfl⟩

/-- In the end the categories are gone from the list, and nothing else. -/
theorem listed_finish (d : Draft) : d.finish.listed =
    d.listed.filter fun id => (d.applyReserved.category? id).isNone := by
  show d.applyReserved.foldCategories.dropRedundant.alignAccessors.resolveClashes.listed = _
  rw [(same_resolveClashes _).listed, listed_alignAccessors, (same_dropRedundant _).listed]
  show d.applyReserved.listed.filter _ = _
  rw [(same_applyReserved d).listed]

end InteropGraph.Draft
