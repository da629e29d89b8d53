import InteropGraph.Proofs.Assembly.State

/-!
# Running the steps of an assembly

What a composed step gives when it is run, in terms of the runs of its parts. The state lives on
through a failure, so an equation says both what comes out and in which state.
-/

namespace InteropGraph.Assembly

variable {α β : Type}

@[simp] theorem run_pure (v : α) (a : Assembly) : (pure v : Assemble α).run a = (.ok v, a) := rfl

@[simp] theorem run_throw (f : Failure) (a : Assembly) :
    (throw f : Assemble α).run a = (.error f, a) := rfl

@[simp] theorem run_currentGraph (a : Assembly) : currentGraph.run a = (.ok a.graph, a) := rfl

@[simp] theorem run_ofExcept (r : Except Failure α) (a : Assembly) :
    (ofExcept r).run a = (r, a) := by
  cases r <;> rfl

/-- The second step is run if the first one succeeds, in the state that it leaves. -/
theorem run_bind (m : Assemble α) (k : α → Assemble β) (a : Assembly) :
    (m >>= k).run a = match m.run a with
      | (.ok v, b) => (k v).run b
      | (.error f, b) => (.error f, b) := by
  show ExceptT.bindCont k (m.run a).1 (m.run a).2 = _
  rcases m.run a with ⟨_ | v, b⟩ <;> rfl

/-- A composed step that succeeds can be taken apart. -/
theorem of_run_bind {m : Assemble α} {k : α → Assemble β} {a c : Assembly} {w : β}
    (h : (m >>= k).run a = (.ok w, c)) :
    ∃ v b, m.run a = (.ok v, b) ∧ (k v).run b = (.ok w, c) := by
  rw [run_bind] at h
  rcases hm : m.run a with ⟨f | v, b⟩
  · rw [hm] at h
    cases h
  · rw [hm] at h
    exact ⟨v, b, rfl, h⟩

/-- A failure that is caught leaves what it did to the state. -/
@[simp] theorem run_attempt (m : Assemble α) (a : Assembly) :
    (attempt m).run a = (.ok (m.run a).1.toOption, (m.run a).2) := by
  unfold attempt ExceptT.run ExceptT.map
  simp only [tryCatch, tryCatchThe, MonadExceptOf.tryCatch, ExceptT.tryCatch, ExceptT.mk, bind,
    StateT.bind]
  rcases m a with ⟨_ | v, b⟩ <;> rfl

/-- Only the failure is told differently. -/
@[simp] theorem run_dependingOn (name : String) (m : Assemble α) (a : Assembly) :
    (dependingOn name m).run a = ((m.run a).1.mapError (.dependency name), (m.run a).2) := rfl

theorem run_get_bind (k : Assembly → Assemble β) (a : Assembly) :
    (get >>= k : Assemble β).run a = (k a).run a := rfl

/-- A construction takes a slot, and either fills it or takes back all that it has begun. -/
theorem run_construct (d : DeclRef) (build : Assemble Entity) (a : Assembly) :
    (construct d build).run a = match build.run (a.begin d).2 with
      | (.ok e, b) => (.ok (a.begin d).1, b.complete (a.begin d).1 e)
      | (.error f, b) => (.error f, b.abandon a.mark d f) := rfl

/-- What is remembered of `d` does not matter when `d` is constructed anew. -/
theorem run_construct_retract (d : DeclRef) (build : Assemble Entity) (a : Assembly) :
    (construct d build).run (a.retract d) = (construct d build).run a := by
  rw [run_construct, run_construct, begin_retract]
  rfl

variable {unit : SourceUnit} {settings : Settings} {entity : Request} {a : Assembly}

/-! ### Requests

One equation for each of the four ways that a request can go, and that there is no other one. -/

section Request

variable {active : List DeclRef} {d : DeclRef} {decl : Declaration} {owner : String}

/-- What has an answer is not constructed. -/
theorem request_of_answer {r : Answer} (h : a.answer? d = some r) :
    (request unit settings active d owner).run a = (r, a.countHit) := by
  rw [request, run_get_bind, h]
  show (ofExcept r).run a.countHit = _
  rw [run_ofExcept]

/-- A declaration that is missing changes nothing. -/
theorem request_of_dangling (h : a.answer? d = none) (hu : unit.declaration? d = none) :
    (request unit settings active d owner).run a =
      (.error (.invalid s!"dangling declaration id {d.index.toNat}"), a) := by
  rw [request, run_get_bind, h]
  dsimp only
  split
  next => rfl
  next decl hdecl => exact absurd hdecl (by simp [hu])

/-- The case that does not come up: what is under way has an answer. -/
theorem request_of_active (h : a.answer? d = none) (hu : unit.declaration? d = some decl)
    (hd : d ∈ active) : (request unit settings active d owner).run a =
      (.error (.invalid s!"declaration id {d.index.toNat} is under way"), a) := by
  rw [request, run_get_bind, h]
  dsimp only
  split
  next hdecl => exact absurd hdecl (by simp [hu])
  next =>
    rw [dif_pos hd]
    rfl

/-- A declaration without an answer is constructed. -/
theorem request_of_fresh (h : a.answer? d = none) (hu : unit.declaration? d = some decl)
    (hd : d ∉ active) : (request unit settings active d owner).run a =
      (construct d
        (build unit settings (request unit settings (d :: active)) d decl owner)).run a := by
  rw [request, run_get_bind, h]
  dsimp only
  split
  next hdecl => exact absurd hdecl (by simp [hu])
  next decl' hdecl =>
    obtain rfl : decl = decl' := Option.some.inj (hu.symm.trans hdecl)
    rw [dif_neg hd]

/-- The four ways that a request goes. -/
theorem request_cases (unit : SourceUnit) (settings : Settings) (active : List DeclRef)
    (d : DeclRef) (owner : String) (a : Assembly) :
    (∃ r, a.answer? d = some r ∧
      (request unit settings active d owner).run a = (r, a.countHit)) ∨
    (a.answer? d = none ∧ unit.declaration? d = none ∧
      (request unit settings active d owner).run a =
        (.error (.invalid s!"dangling declaration id {d.index.toNat}"), a)) ∨
    (∃ decl, a.answer? d = none ∧ unit.declaration? d = some decl ∧ d ∈ active ∧
      (request unit settings active d owner).run a =
        (.error (.invalid s!"declaration id {d.index.toNat} is under way"), a)) ∨
    ∃ decl, a.answer? d = none ∧ unit.declaration? d = some decl ∧ d ∉ active ∧
      (request unit settings active d owner).run a = (construct d
        (build unit settings (request unit settings (d :: active)) d decl owner)).run a := by
  cases hd : a.answer? d with
  | some r => exact .inl ⟨r, rfl, request_of_answer hd⟩
  | none =>
    cases hu : unit.declaration? d with
    | none => exact .inr (.inl ⟨rfl, rfl, request_of_dangling hd hu⟩)
    | some decl =>
      by_cases hactive : d ∈ active
      · exact .inr (.inr (.inl ⟨decl, rfl, rfl, hactive, request_of_active hd hu hactive⟩))
      · exact .inr (.inr (.inr ⟨decl, rfl, rfl, hactive, request_of_fresh hd hu hactive⟩))

end Request

/-! ### Types

Likewise for the resolution of a type. -/

section Resolve

variable {resolving : List TypeRef} {t : TypeRef} {node : TypeNode}

/-- A type that is remembered is not resolved again. -/
theorem resolve_of_known {id : TypeId} (h : a.typeId? t = some id) :
    (resolve unit entity resolving t).run a = (.ok id, a) := by
  rw [resolve, run_get_bind, h]
  rfl

/-- A type that is missing changes nothing. -/
theorem resolve_of_dangling (h : a.typeId? t = none) (hu : unit.type? t = none) :
    (resolve unit entity resolving t).run a =
      (.error (.invalid s!"dangling type id {t.index.toNat}"), a) := by
  rw [resolve, run_get_bind, h]
  dsimp only
  split
  next => rfl
  next node hnode => exact absurd hnode (by simp [hu])

/-- A type that is met again inside of itself is refused. -/
theorem resolve_of_cycle (h : a.typeId? t = none) (hu : unit.type? t = some node)
    (ht : t ∈ resolving) : (resolve unit entity resolving t).run a =
      (.error (.invalid s!"cyclic type id {t.index.toNat}"), a) := by
  rw [resolve, run_get_bind, h]
  dsimp only
  split
  next hnode => exact absurd hnode (by simp [hu])
  next =>
    rw [dif_pos ht]
    rfl

/-- A type is converted after its parts, and remembered. -/
theorem resolve_of_fresh (h : a.typeId? t = none) (hu : unit.type? t = some node)
    (ht : t ∉ resolving) : (resolve unit entity resolving t).run a =
      (convert unit entity (resolve unit entity (t :: resolving)) node >>= addType t).run a := by
  rw [resolve, run_get_bind, h]
  dsimp only
  split
  next hnode => exact absurd hnode (by simp [hu])
  next node' hnode =>
    obtain rfl : node = node' := Option.some.inj (hu.symm.trans hnode)
    rw [dif_neg ht]

/-- The four ways that resolving goes. -/
theorem resolve_cases (unit : SourceUnit) (entity : Request) (resolving : List TypeRef)
    (t : TypeRef) (a : Assembly) :
    (∃ id, a.typeId? t = some id ∧ (resolve unit entity resolving t).run a = (.ok id, a)) ∨
    (a.typeId? t = none ∧ unit.type? t = none ∧ (resolve unit entity resolving t).run a =
      (.error (.invalid s!"dangling type id {t.index.toNat}"), a)) ∨
    (∃ node, a.typeId? t = none ∧ unit.type? t = some node ∧ t ∈ resolving ∧
      (resolve unit entity resolving t).run a =
        (.error (.invalid s!"cyclic type id {t.index.toNat}"), a)) ∨
    ∃ node, a.typeId? t = none ∧ unit.type? t = some node ∧ t ∉ resolving ∧
      (resolve unit entity resolving t).run a =
        (convert unit entity (resolve unit entity (t :: resolving)) node >>= addType t).run a := by
  cases ht : a.typeId? t with
  | some id => exact .inl ⟨id, rfl, resolve_of_known ht⟩
  | none =>
    cases hu : unit.type? t with
    | none => exact .inr (.inl ⟨rfl, rfl, resolve_of_dangling ht hu⟩)
    | some node =>
      by_cases hr : t ∈ resolving
      · exact .inr (.inr (.inl ⟨node, rfl, rfl, hr, resolve_of_cycle ht hu hr⟩))
      · exact .inr (.inr (.inr ⟨node, rfl, rfl, hr, resolve_of_fresh ht hu hr⟩))

end Resolve

end InteropGraph.Assembly
