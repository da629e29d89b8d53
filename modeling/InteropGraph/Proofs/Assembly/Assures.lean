import InteropGraph.Proofs.Assembly.Denotes

/-!
# What a step assures

`Assures I m a Q E` says that the step `m`, run in the state `a`, keeps the invariant `I`, ends with
`Q` if it succeeds, and fails only if `E` holds. A step that is composed of others assures what
follows from what they assure, since facts about the state in between survive the rest (`Grows`).
-/

namespace InteropGraph.Assembly

variable {α β : Type}

/-- What is known after the step `m` has been run in the state `a`. -/
structure Assures (I : Assembly → Prop) (m : Assemble α) (a : Assembly) (Q : α → Assembly → Prop)
    (E : Prop) : Prop where
  grows : Grows a (m.run a).2
  invariant : I (m.run a).2
  success : ∀ v, (m.run a).1 = .ok v → Q v (m.run a).2
  failure : ∀ f, (m.run a).1 = .error f → E

namespace Assures

variable {I : Assembly → Prop} {m : Assemble α} {a : Assembly} {Q : α → Assembly → Prop}
  {E F : Prop}

theorem of_run_ok {v : α} {b : Assembly} (hrun : m.run a = (.ok v, b)) (hgrows : Grows a b)
    (hI : I b) (hQ : Q v b) : Assures I m a Q E := by
  refine ⟨?_, ?_, ?_, ?_⟩ <;> rw [hrun]
  · exact hgrows
  · exact hI
  · rintro w ⟨⟩
    exact hQ
  · exact nofun

theorem of_run_error {f : Failure} {b : Assembly} (hrun : m.run a = (.error f, b))
    (hgrows : Grows a b) (hI : I b) (hE : E) : Assures I m a Q E := by
  refine ⟨?_, ?_, ?_, ?_⟩ <;> rw [hrun]
  · exact hgrows
  · exact hI
  · exact nofun
  · exact fun _ _ => hE

/-- A step that goes on with another one assures what that does. -/
theorem of_run {m' : Assemble α} {b : Assembly} (hrun : m.run a = m'.run b) (hgrows : Grows a b)
    (h : Assures I m' b Q E) : Assures I m a Q E := by
  refine ⟨?_, ?_, ?_, ?_⟩ <;> rw [hrun]
  · exact hgrows.trans h.grows
  · exact h.invariant
  · exact h.success
  · exact h.failure

theorem pure {v : α} (hI : I a) (hQ : Q v a) : Assures I (pure v) a Q E :=
  .of_run_ok (run_pure v a) (.refl a) hI hQ

theorem throw {f : Failure} (hI : I a) (hE : E) : Assures I (throw f) a Q E :=
  .of_run_error (run_throw f a) (.refl a) hI hE

/-- A check assures what its result says. -/
theorem ofExcept {r : Except Failure α} (hI : I a) (hok : ∀ v, r = .ok v → Q v a)
    (hE : ¬(∃ v, r = .ok v) → E) : Assures I (ofExcept r) a Q E := by
  cases r with
  | ok v => exact pure hI (hok v rfl)
  | error f => exact throw hI (hE nofun)

/-- Looking at the graph changes nothing. -/
theorem currentGraph (hI : I a) : Assures I currentGraph a (fun g b => g = b.graph) E :=
  .of_run_ok (run_currentGraph a) (.refl a) hI rfl

/-- Less may be assured, also by what is known of the state that is reached. -/
theorem weaken (h : Assures I m a Q E) {R : α → Assembly → Prop}
    (hR : ∀ v b, Grows a b → I b → Q v b → R v b) (hF : E → F) : Assures I m a R F where
  grows := h.grows
  invariant := h.invariant
  success v hv := hR v _ h.grows h.invariant (h.success v hv)
  failure f hf := hF (h.failure f hf)

/-- A step that fails for other reasons than the rest. -/
theorem orElse (h : Assures I m a Q E) (hF : E → F) : Assures I m a Q F :=
  h.weaken (fun _ _ _ _ hQ => hQ) hF

/-- A second step may rely on what the first one has assured. -/
theorem bind {k : α → Assemble β} {R : β → Assembly → Prop} (hm : Assures I m a Q E)
    (hk : ∀ v b, Grows a b → I b → Q v b → Assures I (k v) b R E) :
    Assures I (m >>= k) a R E := by
  obtain ⟨hgrows, hI, hok, herror⟩ := hm
  rcases hrun : m.run a with ⟨f | v, b⟩
  · rw [hrun] at hgrows hI herror
    exact .of_run_error (by rw [run_bind, hrun]) hgrows hI (herror f rfl)
  · rw [hrun] at hgrows hI hok
    exact .of_run (by rw [run_bind, hrun]) hgrows (hk v b hgrows hI (hok v rfl))

/-- The result may be turned into another one. -/
theorem map {g : α → β} {R : β → Assembly → Prop} (h : Assures I m a Q E)
    (hR : ∀ v b, Q v b → R (g v) b) : Assures I (g <$> m) a R E := by
  rw [map_eq_pure_bind]
  exact h.bind fun v b _ hI hQ => pure hI (hR v b hQ)

/-- A step whose failure is caught never fails. -/
theorem attempt (h : Assures I m a Q E) :
    Assures I (attempt m) a (fun v b => ∀ x, v = some x → Q x b) False := by
  refine .of_run_ok (run_attempt m a) h.grows h.invariant fun x hx => ?_
  cases hrun : (m.run a).1 with
  | error f =>
    rw [hrun] at hx
    cases hx
  | ok y =>
    rw [hrun] at hx
    cases hx
    exact h.success x hrun

/-- A failure that is told with a name is a failure still. -/
theorem dependingOn (h : Assures I m a Q E) (name : String) :
    Assures I (dependingOn name m) a Q E := by
  cases hrun : (m.run a).1 with
  | error f =>
    refine .of_run_error (f := .dependency name f) ?_ h.grows h.invariant (h.failure f hrun)
    rw [run_dependingOn, hrun]
    rfl
  | ok v =>
    refine .of_run_ok (v := v) ?_ h.grows h.invariant (h.success v hrun)
    rw [run_dependingOn, hrun]
    rfl

/-- Steps that are taken for each element of a list each assure what they would by themselves, if
that stays true; they fail only if one of them does. -/
theorem mapM {f : α → Assemble β} {P : α → β → Assembly → Prop} {R : α → Prop} {l : List α}
    (hmono : ∀ x v b c, Grows b c → P x v b → P x v c)
    (hf : ∀ x ∈ l, ∀ b, Grows a b → I b → Assures I (f x) b (P x) (¬R x)) (hI : I a) :
    Assures I (l.mapM f) a (fun vs b => List.Forall₂ (fun x v => P x v b) l vs)
      (¬∀ x ∈ l, R x) := by
  induction l generalizing a with
  | nil => exact pure hI .nil
  | cons x l ih =>
    rw [List.mapM_cons]
    have hhead := hf x List.mem_cons_self a (.refl a) hI
    refine (hhead.orElse fun hx hall => hx (hall x List.mem_cons_self)).bind
      fun v b hab hb hv => ?_
    have htail : ∀ y ∈ l, ∀ c, Grows b c → I c → Assures I (f y) c (P y) (¬R y) :=
      fun y hy c hbc => hf y (List.mem_cons_of_mem x hy) c (hab.trans hbc)
    refine ((ih htail hb).orElse fun hl hall =>
      hl fun y hy => hall y (List.mem_cons_of_mem x hy)).bind fun vs c hbc hc hvs => ?_
    exact pure hc (.cons (hmono x v b c hbc hv) hvs)

/-- Likewise for steps that may leave elements out and never fail. -/
theorem filterMapM {f : α → Assemble (Option β)} {P : α → β → Assembly → Prop} {l : List α}
    (hmono : ∀ x v b c, Grows b c → P x v b → P x v c)
    (hf : ∀ x ∈ l, ∀ b, Grows a b → I b →
      Assures I (f x) b (fun v c => ∀ y, v = some y → P x y c) False) (hI : I a) :
    Assures I (l.filterMapM f) a (fun vs b => ∀ v ∈ vs, ∃ x ∈ l, P x v b) False := by
  induction l generalizing a with
  | nil => exact pure hI nofun
  | cons x l ih =>
    rw [List.filterMapM_cons]
    refine (hf x List.mem_cons_self a (.refl a) hI).bind fun v b hab hb hv => ?_
    have htail : ∀ y ∈ l, ∀ c, Grows b c → I c →
        Assures I (f y) c (fun v c => ∀ z, v = some z → P y z c) False :=
      fun y hy c hbc => hf y (List.mem_cons_of_mem x hy) c (hab.trans hbc)
    have hrest := (ih htail hb).weaken (F := False)
      (R := fun vs b => ∀ v ∈ vs, ∃ y ∈ x :: l, P y v b)
      (fun vs c _ _ hvs v hv => by
        obtain ⟨y, hy, hP⟩ := hvs v hv
        exact ⟨y, List.mem_cons_of_mem x hy, hP⟩) id
    cases v with
    | none => exact hrest
    | some w =>
      refine hrest.bind fun vs c hbc hc hvs => pure hc fun v hmem => ?_
      rcases List.mem_cons.mp hmem with rfl | hmem
      · exact ⟨x, List.mem_cons_self, hmono x v b c hbc (hv v rfl)⟩
      · exact hvs v hmem

end Assures

end InteropGraph.Assembly
