import InteropGraph.Proofs.Assembly.Growth

/-!
# Calls from outside

A run of an assembly is a sequence of calls, each of which asks for an entity or has it constructed
anew. Between calls nothing is under construction, so that every entity that is remembered is
complete (`Settled`). A call leaves the memory of every other declaration as it is, and is itself
remembered (`Call.run_extends`, `Call.run_recorded`); the answers to later calls follow from this by
induction over the calls in between.
-/

namespace InteropGraph.Assembly

/-- A call from outside. -/
structure Call where
  decl : DeclRef
  /-- Whether the entity is constructed anew. -/
  anew : Bool
  owner : String
deriving DecidableEq, Repr

variable (unit : SourceUnit) (settings : Settings)

/-- What a call does. -/
def Call.step (c : Call) : Assemble EntityId :=
  if c.anew then recreate unit settings c.decl c.owner
  else create unit settings c.decl c.owner

/-- The state after some calls. -/
def afterCall (a : Assembly) (c : Call) : Assembly :=
  ((c.step unit settings).run a).2

/-- The state after all of the calls. -/
def afterCalls (calls : List Call) : Assembly :=
  calls.foldl (afterCall unit settings) .empty

/-- What a call gives when it comes after others. -/
def answerAfter (calls : List Call) (c : Call) : Answer :=
  ((c.step unit settings).run (afterCalls unit settings calls)).1

variable {unit : SourceUnit} {settings : Settings} {a b : Assembly} {c : Call} {d x : DeclRef}

/-! ### Between calls -/

/-- Only declarations have answers, and every entity that is remembered is complete. -/
structure Settled (unit : SourceUnit) (a : Assembly) : Prop where
  declared : ∀ {d r}, a.answer? d = some r → (unit.declaration? d).isSome
  made : ∀ {d id}, a.answer? d = some (.ok id) →
    ∃ e, a.graph.entity? id = some e ∧ e.source = some d

namespace Settled

theorem empty (unit : SourceUnit) : Settled unit .empty where
  declared h := nomatch h
  made h := nomatch h

/-- Between calls everything that is ready is complete. -/
theorem mono (ha : Settled unit a) (h : Extends unit a b) : Settled unit b where
  declared hb := (h.declared hb).elim ha.declared id
  made hb := by
    rcases h.made hb with hb | ⟨-, hnew⟩
    · obtain ⟨e, he, hs⟩ := ha.made hb
      exact ⟨e, h.entity he, hs⟩
    · exact hnew

/-- What is taken back leaves the rest as it is. -/
theorem retract (ha : Settled unit a) (d : DeclRef) : Settled unit (a.retract d) where
  declared {x r} hx := by
    rw [answer?_retract] at hx
    by_cases hne : x = d
    · rw [if_pos hne] at hx
      cases hx
    · rw [if_neg hne] at hx
      exact ha.declared hx
  made {x id} hx := by
    rw [answer?_retract] at hx
    by_cases hne : x = d
    · rw [if_pos hne] at hx
      cases hx
    · rw [if_neg hne] at hx
      exact ha.made hx

/-- There are no answers for what is not declared. -/
theorem answer_eq_none (ha : Settled unit a) (h : unit.declaration? d = none) :
    a.answer? d = none := by
  cases hd : a.answer? d with
  | none => rfl
  | some r => exact absurd (ha.declared hd) (by simp [h])

end Settled

/-! ### One construction, one call -/

/-- A declaration that is missing cannot be constructed anew either. -/
theorem recreate_of_dangling (h : unit.declaration? d = none) (owner : String) :
    (recreate unit settings d owner).run a =
      (.error (.invalid s!"dangling declaration id {d.index.toNat}"), a) := by
  unfold recreate
  rw [h]
  rfl

/-- Constructing anew looks at no answer. -/
theorem recreate_of_declared {decl : Declaration} (h : unit.declaration? d = some decl)
    (owner : String) : recreate unit settings d owner =
      construct d (build unit settings (request unit settings [d]) d decl owner) := by
  unfold recreate
  rw [h]

/-- A construction ends with its result as the answer. -/
theorem construct_recorded {build : Assemble Entity} (hbuild : Extending unit build)
    (a : Assembly) : ((construct d build).run a).2.answer? d =
      some ((construct d build).run a).1 := by
  have h := hbuild (a.begin d).2
  rw [run_construct]
  rcases hrun : build.run (a.begin d).2 with ⟨f | e, b⟩
  · show (b.abandon a.mark d f).answer? d = _
    rw [answer?_abandon, if_pos rfl]
  · rw [hrun] at h
    exact h.answer (by rw [answer?_begin, if_pos rfl])

/-- An entity that is constructed comes into a slot of its own. -/
theorem construct_index {build : Assemble Entity} {id : EntityId}
    (h : ((construct d build).run a).1 = .ok id) : id.index = a.graph.slots.size := by
  rw [run_construct] at h
  rcases hrun : build.run (a.begin d).2 with ⟨f | e, b⟩
  · rw [hrun] at h
    cases h
  · rw [hrun] at h
    cases h
    rfl

namespace Call

/-- A call extends the state, except that a new construction forgets its own declaration first. -/
theorem run_extends (unit : SourceUnit) (settings : Settings) (c : Call) (a : Assembly) : ∃ before,
    (before = a ∨ c.anew ∧ before = a.retract c.decl) ∧
      Extends unit before (afterCall unit settings a c) := by
  unfold afterCall step
  by_cases hanew : c.anew
  · rw [if_pos hanew]
    cases hdecl : unit.declaration? c.decl with
    | none =>
      rw [recreate_of_dangling hdecl]
      exact ⟨a, .inl rfl, .refl unit a⟩
    | some decl =>
      -- to construct anew is to forget the answer and then to construct
      rw [recreate_of_declared hdecl, ← run_construct_retract]
      refine ⟨a.retract c.decl, .inr ⟨hanew, rfl⟩, ?_⟩
      refine construct_extends (build_extending (request_extending unit settings [c.decl]) _ _ _)
        (by rw [hdecl]; rfl) (fun _ _ _ => source_of_build) ?_
      rw [answer?_retract, if_pos rfl]
  · rw [if_neg hanew]
    exact ⟨a, .inl rfl, request_extending unit settings [] c.decl c.owner a⟩

/-- After a call nothing is under construction. -/
theorem run_settled (ha : Settled unit a) (c : Call) :
    Settled unit (afterCall unit settings a c) := by
  obtain ⟨before, hbefore, h⟩ := run_extends unit settings c a
  rcases hbefore with rfl | ⟨-, rfl⟩
  · exact ha.mono h
  · exact (ha.retract c.decl).mono h

/-- A call leaves what is complete as it is. -/
theorem run_entity (c : Call) {id : EntityId} {e : Entity} (he : a.graph.entity? id = some e) :
    (afterCall unit settings a c).graph.entity? id = some e := by
  obtain ⟨before, hbefore, h⟩ := run_extends unit settings c a
  rcases hbefore with rfl | ⟨-, rfl⟩
  · exact h.entity he
  · exact h.entity he

/-- What is remembered of other declarations stays. -/
theorem run_answer_of_ne (c : Call) (hx : c.decl ≠ x) {r : Answer} (h : a.answer? x = some r) :
    (afterCall unit settings a c).answer? x = some r := by
  obtain ⟨before, hbefore, hext⟩ := run_extends unit settings c a
  rcases hbefore with rfl | ⟨-, rfl⟩
  · exact hext.answer h
  · exact hext.answer (by rw [answer?_retract, if_neg (Ne.symm hx), h])

/-- The result of a call is remembered. -/
theorem run_recorded (c : Call) (a : Assembly) (hdecl : (unit.declaration? c.decl).isSome) :
    (afterCall unit settings a c).answer? c.decl = some ((c.step unit settings).run a).1 := by
  obtain ⟨decl, hdecl⟩ := Option.isSome_iff_exists.mp hdecl
  have hbuild (owner : String) : Extending unit
      (build unit settings (request unit settings [c.decl]) c.decl decl owner) :=
    build_extending (request_extending unit settings [c.decl]) c.decl decl owner
  unfold afterCall step
  by_cases hanew : c.anew
  · rw [if_pos hanew, recreate_of_declared hdecl]
    exact construct_recorded (hbuild c.owner) a
  · rw [if_neg hanew]
    unfold create
    cases hd : a.answer? c.decl with
    | some r =>
      rw [request_of_answer hd]
      exact hd
    | none =>
      rw [request_of_fresh hd hdecl (List.not_mem_nil)]
      exact construct_recorded (hbuild c.owner) a

/-- A declaration that does not exist is refused, and nothing else happens. -/
theorem run_of_dangling (ha : Settled unit a) (hdecl : unit.declaration? c.decl = none) :
    (c.step unit settings).run a =
      (.error (.invalid s!"dangling declaration id {c.decl.index.toNat}"), a) := by
  unfold step
  by_cases hanew : c.anew
  · rw [if_pos hanew, recreate_of_dangling hdecl]
  · rw [if_neg hanew]
    exact request_of_dangling (ha.answer_eq_none hdecl) hdecl

/-- A result is the place of a complete entity. -/
theorem run_made (ha : Settled unit a) {id : EntityId}
    (h : ((c.step unit settings).run a).1 = .ok id) :
    ∃ e, (afterCall unit settings a c).graph.entity? id = some e := by
  cases hdecl : unit.declaration? c.decl with
  | none =>
    rw [run_of_dangling ha hdecl] at h
    cases h
  | some decl =>
    have hrec : (afterCall unit settings a c).answer? c.decl = some (.ok id) := by
      rw [run_recorded c a (by rw [hdecl]; rfl), h]
    obtain ⟨e, he, -⟩ := (run_settled ha c).made hrec
    exact ⟨e, he⟩

/-- An entity that is constructed anew comes into the next slot. -/
theorem run_index (hanew : c.anew) {id : EntityId}
    (h : ((c.step unit settings).run a).1 = .ok id) : id.index = a.graph.slots.size := by
  unfold step at h
  rw [if_pos hanew] at h
  cases hdecl : unit.declaration? c.decl with
  | none =>
    rw [recreate_of_dangling hdecl] at h
    cases h
  | some decl =>
    rw [recreate_of_declared hdecl] at h
    exact construct_index h

end Call

/-! ### Sequences of calls -/

theorem afterCalls_append (before later : List Call) :
    afterCalls unit settings (before ++ later) =
      later.foldl (afterCall unit settings) (afterCalls unit settings before) :=
  List.foldl_append

/-- The calls before, one call, and the calls after it. -/
theorem afterCalls_cons (before later : List Call) (c : Call) :
    afterCalls unit settings (before ++ c :: later) =
      later.foldl (afterCall unit settings)
        (afterCall unit settings (afterCalls unit settings before) c) := by
  rw [afterCalls_append, List.foldl_cons]

/-- After any calls nothing is under construction. -/
theorem settled_afterCalls (unit : SourceUnit) (settings : Settings) (calls : List Call) :
    Settled unit (afterCalls unit settings calls) :=
  List.foldlRecOn calls _ (.empty unit) fun _ ha c _ => Call.run_settled ha c

/-- What is complete stays as it is through all later calls. -/
theorem entity_foldl (calls : List Call) {id : EntityId} {e : Entity}
    (he : a.graph.entity? id = some e) :
    (calls.foldl (afterCall unit settings) a).graph.entity? id = some e :=
  List.foldlRecOn (motive := fun (b : Assembly) => b.graph.entity? id = some e) calls _ he
    fun _ hb c _ => Call.run_entity c hb

/-- An answer is kept through calls for other declarations. -/
theorem answer_foldl (calls : List Call) (hx : ∀ c ∈ calls, c.decl ≠ x) {r : Answer}
    (h : a.answer? x = some r) :
    (calls.foldl (afterCall unit settings) a).answer? x = some r :=
  List.foldlRecOn (motive := fun (b : Assembly) => b.answer? x = some r) calls _ h
    fun _ hb c hc => Call.run_answer_of_ne c (hx c hc) hb

/-- A place that has been returned holds an entity, and the same one ever after. -/
theorem entity_of_answerAfter {before : List Call} {id : EntityId}
    (h : answerAfter unit settings before c = .ok id) :
    ∃ e, ∀ later, (afterCalls unit settings (before ++ c :: later)).graph.entity? id = some e := by
  obtain ⟨e, he⟩ := Call.run_made (settled_afterCalls unit settings before) h
  refine ⟨e, fun later => ?_⟩
  rw [afterCalls_cons]
  exact entity_foldl later he

/-- **Memory of calls.** A call repeats the latest answer for its declaration, and constructs
nothing if there is such a declaration; a declaration is constructed anew at a place that no call
has returned before; and what is at a place that a call has returned stays the same. -/
theorem calls_are_remembered (unit : SourceUnit) (settings : Settings) :
    (∀ before c between owner, (∀ other ∈ between, other.decl ≠ c.decl) →
      (create unit settings c.decl owner).run
          (afterCalls unit settings (before ++ c :: between)) =
        (answerAfter unit settings before c,
          if (unit.declaration? c.decl).isSome then
            (afterCalls unit settings (before ++ c :: between)).countHit
          else afterCalls unit settings (before ++ c :: between))) ∧
    (∀ earlier other between c id, c.anew →
      answerAfter unit settings (earlier ++ other :: between) c = .ok id →
      answerAfter unit settings earlier other ≠ .ok id) ∧
    (∀ before c id, answerAfter unit settings before c = .ok id →
      ∃ e, ∀ later,
        (afterCalls unit settings (before ++ c :: later)).graph.entity? id = some e) := by
  -- the three parts: repeated answers, new places, lasting entities
  refine ⟨?_, ?_, fun before c id => entity_of_answerAfter⟩
  · intro before c between owner hbetween
    by_cases hdecl : (unit.declaration? c.decl).isSome
    · have hrec : (afterCalls unit settings (before ++ c :: between)).answer? c.decl =
          some (answerAfter unit settings before c) := by
        rw [afterCalls_cons]
        exact answer_foldl between hbetween (Call.run_recorded c _ hdecl)
      rw [if_pos hdecl]
      exact request_of_answer hrec
    · have hnone : unit.declaration? c.decl = none := by simpa using hdecl
      have hsettled := settled_afterCalls unit settings (before ++ c :: between)
      have hc : answerAfter unit settings before c =
          .error (.invalid s!"dangling declaration id {c.decl.index.toNat}") := by
        unfold answerAfter
        rw [Call.run_of_dangling (settled_afterCalls unit settings before) hnone]
      rw [if_neg hdecl, hc]
      exact request_of_dangling (hsettled.answer_eq_none hnone) hnone
  · intro earlier other between c id hanew hc hother
    -- a new slot is behind all others, and the place of an earlier answer is one of those
    have hindex := Call.run_index hanew hc
    obtain ⟨e, he⟩ := entity_of_answerAfter hother
    exact absurd (Graph.index_lt_of_entity? (he between)) (by rw [hindex]; exact Nat.lt_irrefl _)

/-- A record by itself, one that is a field of another, and this other one, which has a field of a
missing type behind it. -/
def brokenOuter : SourceUnit where
  declarations := #[⟨"Point", "M", none, [], .none, .record false []⟩,
    ⟨"Inner", "M", none, [], .none, .record false []⟩,
    ⟨"Outer", "M", none, [], .none, .record false [⟨"inner", ⟨0⟩⟩, ⟨"bad", ⟨99⟩⟩]⟩]
  types := #[.record ⟨1⟩]

/-- The first record is constructed anew twice, with a call in between and one afterwards that fail.
The failure takes the answer for `Inner` back, and leaves its entity where it is. The second entity
of `Point` comes into a place of its own, and that is remembered. -/
theorem calls_are_remembered_twice :
    let again : Call := ⟨⟨0⟩, true, ""⟩
    let failing : Call := ⟨⟨2⟩, false, ""⟩
    let calls := [again, failing, again, failing]
    (∃ f, answerAfter brokenOuter .default [again] failing = .error f) ∧
    ((afterCalls brokenOuter .default [again, failing]).answer? ⟨1⟩ = none ∧
      ((afterCalls brokenOuter .default [again, failing]).graph.entity? ⟨2⟩).bind Entity.source =
        some ⟨1⟩) ∧
    answerAfter brokenOuter .default [] again ≠ .ok ⟨3⟩ ∧
    (create brokenOuter .default ⟨0⟩ "").run (afterCalls brokenOuter .default calls) =
      (.ok ⟨3⟩, (afterCalls brokenOuter .default calls).countHit) ∧
    ∃ e, ∀ later,
      (afterCalls brokenOuter .default (again :: later)).graph.entity? ⟨0⟩ = some e := by
  intro again failing calls
  have first : answerAfter brokenOuter .default [] again = .ok ⟨0⟩ := by decide +kernel
  have second : answerAfter brokenOuter .default [again, failing] again = .ok ⟨3⟩ := by
    decide +kernel
  have fails : answerAfter brokenOuter .default [again] failing =
      .error (.dependency "field 'bad'" (.invalid "dangling type id 99")) := by decide +kernel
  obtain ⟨repeats, distinct, stays⟩ := calls_are_remembered brokenOuter .default
  refine ⟨⟨_, fails⟩, ⟨by decide +kernel, by decide +kernel⟩,
    distinct [] again [failing] again ⟨3⟩ rfl second, ?_, stays [] again ⟨0⟩ first⟩
  rw [← second]
  exact repeats [again, failing] again [failing] "" (by decide)

end InteropGraph.Assembly
