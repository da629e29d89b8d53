import InteropGraph.Proofs.Assembly.Denotes

/-!
# Looking through type names

Type names are looked through twice, independently: `resolve` goes to the end of a chain of names
and copies the type that is found there, and `peel?` looks for the node at the end and gives up
after `maxAliasDepth` names. `LeadsTo` is the way that `resolve` takes, with the number of names on
it. What the two find is the same, unless the chain is too long for `peel?` (`Behind`) or ends with
one of the names that `resolve` does not look through although `peel?` does (`Masked`). The latter
matters only if there is something behind such a name that a flag asks for (`HidesSelf`,
`HidesErrorOut`).
-/

namespace InteropGraph

open Assembly (namedType? maxAliasDepth)

/-! ### Chains of names -/

namespace SourceUnit

/-- There are `n` type names from `t` down to `u`, which is none or stands for a type of its own. -/
inductive LeadsTo (unit : SourceUnit) : TypeRef → Nat → TypeRef → Prop where
  | here {u node} (found : unit.type? u = some node)
      (stop : ∀ name v, node = .alias name v → namedType? name ≠ none) : LeadsTo unit u 0 u
  | step {t name v n u} (found : unit.type? t = some (.alias name v))
      (plain : namedType? name = none) (rest : LeadsTo unit v n u) : LeadsTo unit t (n + 1) u

/-- There are at least `k` names in front of what `t` stands for. -/
def Behind (unit : SourceUnit) (k : Nat) (t : TypeRef) : Prop :=
  ∃ n u, unit.LeadsTo t n u ∧ k ≤ n

/-- What `t` stands for is named `BOOL` or `unichar`, whatever that is defined as. -/
def Masked (unit : SourceUnit) (t : TypeRef) : Prop :=
  ∃ n u name v, unit.LeadsTo t n u ∧ unit.type? u = some (.alias name v) ∧
    (name = "BOOL" ∨ name = "unichar")

/-- `P` holds of `t` or of what `t` points to. -/
def Along (unit : SourceUnit) (P : TypeRef → Prop) (t : TypeRef) : Prop :=
  P t ∨ ∃ n u v, unit.LeadsTo t n u ∧ unit.type? u = some (.pointer v) ∧ P v

/-- Peeling gets from `t` to a node, if it goes on for long enough. -/
def Peels (unit : SourceUnit) (t : TypeRef) (node : TypeNode) : Prop :=
  ∃ depth, Assembly.peelWithin? unit depth t = some node

/-- `instancetype` is hidden behind the name `BOOL` or `unichar`. -/
def HidesSelf (unit : SourceUnit) (t : TypeRef) : Prop :=
  unit.Masked t ∧ unit.Peels t (.primitive .instancetype)

/-- A pointer to a pointer to objects of an interface is hidden behind the name `BOOL` or `unichar`,
or what it points to is. -/
def HidesErrorOut (unit : SourceUnit) (errorInterface : String) (t : TypeRef) : Prop :=
  ∃ v d refs args decl, (unit.Masked t ∨ unit.Masked v) ∧ unit.Peels t (.pointer v) ∧
    unit.Peels v (.objectPointer d refs args) ∧ unit.declaration? d = some decl ∧
      decl.name = errorInterface

variable {unit : SourceUnit} {t u : TypeRef} {n : Nat}

namespace LeadsTo

/-- Chains do not branch. -/
theorem unique (h : unit.LeadsTo t n u) {m : Nat} {w : TypeRef} (h' : unit.LeadsTo t m w) :
    n = m ∧ u = w := by
  induction h generalizing m with
  | here found stop =>
    cases h' with
    | here => exact ⟨rfl, rfl⟩
    | step found' plain _ =>
      cases found.symm.trans found'
      exact absurd plain (stop _ _ rfl)
  | step found plain _ ih =>
    cases h' with
    | here found' stop =>
      cases found.symm.trans found'
      exact absurd plain (stop _ _ rfl)
    | step found' _ rest' =>
      cases found.symm.trans found'
      obtain ⟨rfl, rfl⟩ := ih rest'
      exact ⟨rfl, rfl⟩

/-- A chain that ends at a typedef ends there because of its name. -/
theorem stop (h : unit.LeadsTo t n u) {name : String} {v : TypeRef}
    (hu : unit.type? u = some (.alias name v)) : namedType? name ≠ none := by
  induction h with
  | here found stop =>
    cases found.symm.trans hu
    exact stop _ _ rfl
  | step _ _ _ ih => exact ih hu

/-- Behind a type there are the typedefs of the chain that it begins, and no others. -/
theorem behind_iff (h : unit.LeadsTo t n u) {k : Nat} : unit.Behind k t ↔ k ≤ n := by
  constructor
  · rintro ⟨m, w, h', hm⟩
    rwa [(h.unique h').1]
  · intro hn
    exact ⟨n, u, h, hn⟩

/-- What leads past all typedefs masks nothing. -/
theorem not_masked (h : unit.LeadsTo t n u)
    (hu : ∀ name v, unit.type? u ≠ some (.alias name v)) : ¬unit.Masked t := by
  rintro ⟨m, w, name, v, h', hw, -⟩
  rw [← (h.unique h').2] at hw
  exact hu name v hw

/-- A chain that ends at a pointer goes on with the type that is pointed to. -/
theorem along_iff (h : unit.LeadsTo t n u) {v : TypeRef}
    (hu : unit.type? u = some (.pointer v)) {P : TypeRef → Prop} :
    unit.Along P t ↔ P t ∨ P v := by
  refine or_congr_right ⟨?_, fun hP => ⟨n, u, v, h, hu, hP⟩⟩
  rintro ⟨m, w, v', h', hw, hP⟩
  rw [← (h.unique h').2, hu] at hw
  cases hw
  exact hP

end LeadsTo

/-- Whoever is behind many typedefs is behind few. -/
theorem Behind.mono {j k : Nat} (h : unit.Behind k t) (hjk : j ≤ k) : unit.Behind j t := by
  obtain ⟨n, u, hleads, hn⟩ := h
  exact ⟨n, u, hleads, Nat.le_trans hjk hn⟩

end SourceUnit

/-- A resolved type is a pointer to a pointer to objects of the interface with a given name. -/
def Graph.IsErrorOut (g : Graph) (errorInterface : String) (t : TypeId) : Prop :=
  ∃ pointee i protocols arguments e, g.type? t = some (.pointer pointee) ∧
    g.type? pointee = some (.interface i protocols arguments) ∧ g.entity? i = some e ∧
      e.name = errorInterface

namespace Assembly

open SourceUnit

variable {unit : SourceUnit} {a : Assembly} {t u : TypeRef} {id : TypeId} {n : Nat}

/-- A chain resolves if its end does. -/
theorem resolves_of_leadsTo (h : unit.LeadsTo t n u) {G : DeclRef → Prop}
    (hu : Resolves unit G u) : Resolves unit G t := by
  induction h with
  | here => exact hu
  | step found plain _ ih =>
    refine .intro found rfl nofun fun v hv => ?_
    rw [parts_alias_of_none plain] at hv
    obtain rfl := List.mem_singleton.mp hv
    exact ih hu

/-! ### Peeling -/

/-- The names that stand for a type by themselves. -/
theorem namedType?_eq_some {name : String} {s : Scalar} (h : namedType? name = some s) :
    (name = "BOOL" ∨ name = "unichar") ∧ s ≠ .instancetype ∨
      name = "instancetype" ∧ s = .instancetype := by
  unfold namedType? at h
  split at h <;> cases h <;> simp

/-- What is left of a type at the end of a chain. -/
def stripped? (unit : SourceUnit) (u : TypeRef) : Option TypeNode :=
  match unit.type? u with
  | some (.alias _ _) => some (.primitive .instancetype)
  | node? => node?

/-- Peeling gives up if there are as many names as its depth, or more. -/
theorem peelWithin?_eq_none (h : unit.LeadsTo t n u) {depth : Nat} (hn : depth ≤ n) :
    peelWithin? unit depth t = none := by
  induction h generalizing depth with
  | here =>
    obtain rfl := Nat.le_zero.mp hn
    rfl
  | @step t name v n u found plain _ ih =>
    have hname : name ≠ "instancetype" := by
      rintro rfl
      cases plain
    cases depth with
    | zero => rfl
    | succ depth =>
      unfold peelWithin?
      rw [found]
      simp only [if_neg hname, ih (Nat.le_of_succ_le_succ hn)]

/-- Otherwise it takes all of them away. -/
theorem peelWithin?_of_lt (h : unit.LeadsTo t n u) (hmask : ¬unit.Masked t) {depth : Nat}
    (hn : n < depth) : peelWithin? unit depth t = stripped? unit u := by
  induction h generalizing depth with
  | @here u node found stop =>
    obtain ⟨depth, rfl⟩ := Nat.exists_eq_succ_of_ne_zero (Nat.ne_of_gt hn)
    unfold peelWithin? stripped?
    rw [found]
    cases node with
    | «alias» name v =>
      obtain ⟨s, hs⟩ := Option.ne_none_iff_exists'.mp (stop name v rfl)
      rcases namedType?_eq_some hs with ⟨hname, -⟩ | ⟨hname, -⟩
      · exact absurd ⟨0, u, name, v, .here found stop, found, hname⟩ hmask
      · exact if_pos hname
    | _ => rfl
  | @step t name v n u found plain rest ih =>
    have hname : name ≠ "instancetype" := by
      rintro rfl
      cases plain
    have hrest : ¬unit.Masked v := by
      rintro ⟨m, w, name', v', h, hw, hname'⟩
      exact hmask ⟨m + 1, w, name', v', .step found plain h, hw, hname'⟩
    obtain ⟨depth, rfl⟩ := Nat.exists_eq_succ_of_ne_zero (Nat.ne_of_gt (Nat.zero_lt_of_lt hn))
    unfold peelWithin?
    rw [found]
    simp only [if_neg hname, ih hrest (Nat.lt_of_succ_lt_succ hn)]

/-- Peeling follows the whole chain, if it is not too long and no name on it is taken for a type. -/
theorem peel?_of_leadsTo (h : unit.LeadsTo t n u) (hmask : ¬unit.Masked t) :
    peel? unit t = if n < maxAliasDepth then stripped? unit u else none := by
  by_cases hn : n < maxAliasDepth
  · rw [if_pos hn]
    exact peelWithin?_of_lt h hmask hn
  · rw [if_neg hn]
    exact peelWithin?_eq_none h (Nat.not_lt.mp hn)

/-- Peeling for as long as it takes comes to the end of the chain. -/
theorem stripped?_of_peels (h : unit.LeadsTo t n u) (hmask : ¬unit.Masked t) {node : TypeNode}
    (hpeels : unit.Peels t node) : stripped? unit u = some node := by
  obtain ⟨depth, hpeel⟩ := hpeels
  by_cases hn : n < depth
  · rwa [peelWithin?_of_lt h hmask hn] at hpeel
  · rw [peelWithin?_eq_none h (Nat.not_lt.mp hn)] at hpeel
    cases hpeel

/-- Nothing is hidden where the chain and the type that is pointed to are read alike. -/
theorem not_hidesErrorOut (h : unit.LeadsTo t n u) {v : TypeRef}
    (hu : unit.type? u = some (.pointer v)) (hv : ¬unit.Masked v) (errorInterface : String) :
    ¬unit.HidesErrorOut errorInterface t := by
  rintro ⟨w, -, -, -, -, hmask, hpeels, -⟩
  have ht : ¬unit.Masked t := h.not_masked fun name v' hname => by
    cases hu.symm.trans hname
  have hstripped := stripped?_of_peels h ht hpeels
  unfold stripped? at hstripped
  rw [hu] at hstripped
  cases hstripped
  exact hmask.elim ht hv

/-! ### Resolved types -/

/-- A resolved type is of the same type as what is at the end of its chain. -/
theorem Denotes.leadsTo (h : Denotes unit a t id) :
    ∃ n u j, unit.LeadsTo t n u ∧ Denotes unit a u j ∧ a.graph.type? id = a.graph.type? j := by
  have hsame := h
  induction h with
  | primitive node | object node | objectPointer node | pointer node | block node
  | functionPointer node | constantArray node | incompleteArray node | union node | record node
  | enumeration node | typeParameter node => exact ⟨0, _, _, .here node nofun, hsame, rfl⟩
  | standalone node scalar =>
    refine ⟨0, _, _, .here node fun name v hname => ?_, hsame, rfl⟩
    cases hname
    rw [scalar]
    nofun
  | synonym node plain part underlying type ih =>
    obtain ⟨n, u, j, hleads, hdenotes, htype⟩ := ih part
    exact ⟨n + 1, u, j, .step node plain hleads, hdenotes, (type.trans underlying.symm).trans htype⟩

/-- What is masked is resolved to a type without parts, and not to `instancetype`. -/
theorem Denotes.exists_scalar_of_masked (h : Denotes unit a t id) (hmask : unit.Masked t) :
    ∃ s, a.graph.type? id = some (.scalar s) ∧ s ≠ .instancetype := by
  obtain ⟨n, u, name, v, hleads, hu, hname⟩ := hmask
  obtain ⟨m, w, j, hleads', hdenotes, htype⟩ := h.leadsTo
  obtain rfl : u = w := (hleads.unique hleads').2
  cases hdenotes with
  | @standalone _ _ name' v' s node scalar type =>
    cases hu.symm.trans node
    refine ⟨s, htype.trans type, ?_⟩
    rcases hname with rfl | rfl <;> cases scalar <;> decide
  | synonym node plain => exact absurd plain (hleads.stop node)
  | primitive node | object node | objectPointer node | pointer node | block node
  | functionPointer node | constantArray node | incompleteArray node | union node | record node
  | enumeration node | typeParameter node => cases hu.symm.trans node

/-- So what is resolved to anything else is not masked. -/
theorem Denotes.not_masked (h : Denotes unit a t id) {type : BridgeType}
    (hid : a.graph.type? id = some type)
    (htype : ∀ s, type = .scalar s → s = .instancetype) : ¬unit.Masked t := by
  intro hmask
  obtain ⟨s, hs, hne⟩ := h.exists_scalar_of_masked hmask
  exact hne (htype s (Option.some.inj (hid.symm.trans hs)))

/-! ### Agreement -/

/-- A type is resolved to `instancetype` exactly if that is at the end of its chain. -/
theorem Denotes.eq_instancetype_iff (h : Denotes unit a t id) (hleads : unit.LeadsTo t n u)
    (hmask : ¬unit.Masked t) : a.graph.type? id = some (.scalar .instancetype) ↔
      stripped? unit u = some (.primitive .instancetype) := by
  obtain ⟨m, w, j, hleads', hdenotes, htype⟩ := h.leadsTo
  obtain rfl : u = w := (hleads.unique hleads').2
  rw [htype]
  unfold stripped?
  cases hdenotes with
  | @primitive _ _ p s node scalar type =>
    rw [node, type]
    cases p <;> cases scalar <;> decide
  | standalone node scalar type =>
    rw [node, type]
    rcases namedType?_eq_some scalar with ⟨hname, -⟩ | ⟨-, rfl⟩
    · exact absurd ⟨n, u, _, _, hleads, node, hname⟩ hmask
    · simp
  | synonym node plain => exact absurd plain (hleads.stop node)
  | object node | objectPointer node | pointer node | block node | functionPointer node
  | constantArray node | incompleteArray node | union node | record node | enumeration node
  | typeParameter node => simp [*]

/-- What `isInstancetype` finds is what a type is resolved to, if it is not behind too many names.
-/
theorem Denotes.isInstancetype_iff (h : Denotes unit a t id) (hmask : ¬unit.Masked t) :
    isInstancetype unit t = true ↔
      a.graph.type? id = some (.scalar .instancetype) ∧ ¬unit.Behind maxAliasDepth t := by
  obtain ⟨n, u, -, hleads, -, -⟩ := h.leadsTo
  unfold isInstancetype
  rw [decide_eq_true_iff, peel?_of_leadsTo hleads hmask, hleads.behind_iff, Nat.not_le,
    h.eq_instancetype_iff hleads hmask]
  by_cases hn : n < maxAliasDepth
  · rw [if_pos hn, and_iff_left hn]
  · rw [if_neg hn]
    exact ⟨nofun, fun h => absurd h.2 hn⟩

/-- Pointers are resolved to pointers. -/
theorem Denotes.exists_pointer (h : Denotes unit a t id) (hleads : unit.LeadsTo t n u)
    {v : TypeRef} (hu : unit.type? u = some (.pointer v)) :
    ∃ j, a.graph.type? id = some (.pointer j) ∧ Denotes unit a v j := by
  obtain ⟨m, w, i, hleads', hdenotes, htype⟩ := h.leadsTo
  obtain rfl : u = w := (hleads.unique hleads').2
  rw [htype]
  cases hdenotes with
  | pointer node part type =>
    cases hu.symm.trans node
    exact ⟨_, type, part⟩
  | primitive node | object node | objectPointer node | block node | functionPointer node
  | constantArray node | incompleteArray node | union node | record node | enumeration node
  | typeParameter node | standalone node | synonym node => cases hu.symm.trans node

/-- Only pointers are. -/
theorem Denotes.exists_leadsTo_pointer (h : Denotes unit a t id) {j : TypeId}
    (hid : a.graph.type? id = some (.pointer j)) :
    ∃ n u v, unit.LeadsTo t n u ∧ unit.type? u = some (.pointer v) ∧ Denotes unit a v j := by
  obtain ⟨n, u, i, hleads, hdenotes, htype⟩ := h.leadsTo
  rw [htype] at hid
  cases hdenotes with
  | pointer node part type =>
    cases hid.symm.trans type
    exact ⟨n, u, _, hleads, node, part⟩
  | synonym node plain => exact absurd plain (hleads.stop node)
  | primitive _ _ type | object _ _ type | objectPointer _ _ _ _ _ type | block _ _ _ type
  | functionPointer _ _ _ type | constantArray _ _ type | incompleteArray _ _ type
  | union _ _ type | record _ _ _ type | enumeration _ _ type | typeParameter _ type
  | standalone _ _ type => cases hid.symm.trans type

/-- Pointers to objects are resolved to interfaces. -/
theorem Denotes.exists_interface (h : Denotes unit a t id) (hleads : unit.LeadsTo t n u)
    {d : DeclRef} {refs : List DeclRef} {args : List TypeRef}
    (hu : unit.type? u = some (.objectPointer d refs args)) :
    ∃ i protocols arguments, a.graph.type? id = some (.interface i protocols arguments) ∧
      a.answer? d = some (.ok i) := by
  obtain ⟨m, w, i, hleads', hdenotes, htype⟩ := h.leadsTo
  obtain rfl : u = w := (hleads.unique hleads').2
  rw [htype]
  cases hdenotes with
  | objectPointer node entity _ _ _ type =>
    cases hu.symm.trans node
    exact ⟨_, _, _, type, entity⟩
  | primitive node | object node | pointer node | block node | functionPointer node
  | constantArray node | incompleteArray node | union node | record node | enumeration node
  | typeParameter node | standalone node | synonym node => cases hu.symm.trans node

/-- Only pointers to objects are. -/
theorem Denotes.exists_leadsTo_objectPointer (h : Denotes unit a t id) {i : EntityId}
    {protocols : List EntityId} {arguments : List TypeId}
    (hid : a.graph.type? id = some (.interface i protocols arguments)) :
    ∃ n u d refs args, unit.LeadsTo t n u ∧ unit.type? u = some (.objectPointer d refs args) ∧
      a.answer? d = some (.ok i) := by
  obtain ⟨n, u, _, hleads, hdenotes, htype⟩ := h.leadsTo
  rw [htype] at hid
  cases hdenotes with
  | objectPointer node entity _ _ _ type =>
    cases hid.symm.trans type
    exact ⟨n, u, _, _, _, hleads, node, entity⟩
  | synonym node plain => exact absurd plain (hleads.stop node)
  | primitive _ _ type | object _ _ type | pointer _ _ type | block _ _ _ type
  | functionPointer _ _ _ type | constantArray _ _ type | incompleteArray _ _ type
  | union _ _ type | record _ _ _ type | enumeration _ _ type | typeParameter _ type
  | standalone _ _ type => cases hid.symm.trans type

/-- What peeling finds is at the end of a chain that is not too long. -/
theorem leadsTo_of_peel? (h : Denotes unit a t id) (hmask : ¬unit.Masked t) {node : TypeNode}
    (hpeel : peel? unit t = some node) (hnode : node ≠ .primitive .instancetype) :
    ∃ n u, unit.LeadsTo t n u ∧ unit.type? u = some node := by
  obtain ⟨n, u, -, hleads, -, -⟩ := h.leadsTo
  rw [peel?_of_leadsTo hleads hmask] at hpeel
  by_cases hn : n < maxAliasDepth
  · rw [if_pos hn] at hpeel
    refine ⟨n, u, hleads, ?_⟩
    unfold stripped? at hpeel
    split at hpeel
    · cases hpeel
      exact absurd rfl hnode
    · exact hpeel
  · rw [if_neg hn] at hpeel
    cases hpeel

/-- It finds whatever is there. -/
theorem peel?_of_not_behind (hleads : unit.LeadsTo t n u) (hlong : ¬unit.Behind maxAliasDepth t)
    {node : TypeNode} (hu : unit.type? u = some node) (hnode : ∀ name v, node ≠ .alias name v) :
    peel? unit t = some node := by
  have hmask : ¬unit.Masked t := hleads.not_masked fun name v hname =>
    hnode name v (Option.some.inj (hu.symm.trans hname))
  rw [hleads.behind_iff, Nat.not_le] at hlong
  rw [peel?_of_leadsTo hleads hmask, if_pos hlong]
  unfold stripped?
  rw [hu]
  cases node with
  | «alias» name v => exact absurd rfl (hnode name v)
  | _ => rfl

/-- It gives up behind too many names. -/
theorem peel?_of_behind (h : unit.Behind maxAliasDepth t) : peel? unit t = none := by
  obtain ⟨n, u, hleads, hn⟩ := h
  exact peelWithin?_eq_none hleads hn

/-- A parameter passes an error out if it is seen to be a pointer to a pointer to the error
interface. -/
theorem isErrorOut_eq_true_iff {errorInterface : String} :
    isErrorOut unit errorInterface t = true ↔ ∃ v d refs args decl,
      peel? unit t = some (.pointer v) ∧ peel? unit v = some (.objectPointer d refs args) ∧
        unit.declaration? d = some decl ∧ decl.name = errorInterface := by
  unfold isErrorOut
  constructor
  · intro h
    split at h
    · split at h
      · obtain ⟨decl, hdecl, hname⟩ := (Option.any_eq_true _ _).mp h
        exact ⟨_, _, _, _, decl, ‹_›, ‹_›, hdecl, of_decide_eq_true hname⟩
      · cases h
    · cases h
  · rintro ⟨v, d, refs, args, decl, hpointer, hobject, hdecl, hname⟩
    rw [hpointer]
    simp only [hobject, hdecl, Option.any_some, decide_eq_true_iff]
    exact hname

/-! ### Flags -/

/-- What a flag that is found by peeling has to do with what is seen of a resolved type. It is set
for nothing else, if nothing is hidden behind the names that only peeling looks through. What is
seen is flagged, unless the chain is long, and nothing is if the chain is too long. -/
structure Tells (flag : Bool) (seen hidden long tooLong : Prop) : Prop where
  seen_of_flag : ¬hidden → flag = true → seen
  flag_of_seen : ¬long → seen → flag = true
  not_flag : tooLong → flag = false

/-- **Returned objects.** What `isInstancetype` finds is what a type is resolved to. -/
theorem Denotes.isInstancetype_tells (h : Denotes unit a t id) :
    Tells (isInstancetype unit t) (a.graph.type? id = some (.scalar .instancetype))
      (unit.HidesSelf t) (unit.Behind maxAliasDepth t) (unit.Behind (maxAliasDepth + 1) t) where
  seen_of_flag hhides hflag := by
    have hpeel : peel? unit t = some (.primitive .instancetype) := of_decide_eq_true hflag
    have hmask : ¬unit.Masked t := fun hmask => hhides ⟨hmask, maxAliasDepth, hpeel⟩
    exact ((h.isInstancetype_iff hmask).mp hflag).1
  flag_of_seen hlong hseen := by
    have hmask : ¬unit.Masked t := h.not_masked hseen fun s hs => by
      cases hs
      rfl
    exact (h.isInstancetype_iff hmask).mpr ⟨hseen, hlong⟩
  not_flag hlong := by
    unfold isInstancetype
    rw [peel?_of_behind (hlong.mono (Nat.le_succ _))]
    rfl

/-- Usually nothing is hidden behind the name `BOOL`. -/
example : ¬HidesSelf ⟨#[], #[.alias "BOOL" ⟨1⟩, .primitive .signedChar]⟩ ⟨0⟩ := by
  rintro ⟨-, _ | _ | depth, hpeel⟩ <;> cases hpeel

/-- **Errors that are passed out.** What `isErrorOut` finds is what a type is resolved to. -/
theorem Denotes.isErrorOut_tells (h : Denotes unit a t id) (errorInterface : String)
    (hnamed : ∀ d i, a.answer? d = some (.ok i) → ∃ decl e, unit.declaration? d = some decl ∧
      a.graph.entity? i = some e ∧ e.name = decl.name) :
    Tells (isErrorOut unit errorInterface t) (a.graph.IsErrorOut errorInterface id)
      (unit.HidesErrorOut errorInterface t) (unit.Along (unit.Behind maxAliasDepth) t)
      (unit.Along (unit.Behind (maxAliasDepth + 1)) t) where
  seen_of_flag hhides hflag := by
    obtain ⟨v, d, refs, args, decl, hpointer, hobject, hdecl, hname⟩ :=
      isErrorOut_eq_true_iff.mp hflag
    obtain ⟨hmaskt, hmaskv⟩ : ¬unit.Masked t ∧ ¬unit.Masked v := not_or.mp fun hmask =>
      hhides ⟨v, d, refs, args, decl, hmask, ⟨_, hpointer⟩, ⟨_, hobject⟩, hdecl, hname⟩
    obtain ⟨n, u, hleads, hu⟩ := leadsTo_of_peel? h hmaskt hpointer nofun
    obtain ⟨j, hid, hv⟩ := h.exists_pointer hleads hu
    obtain ⟨m, w, hleads', hw⟩ := leadsTo_of_peel? hv hmaskv hobject nofun
    obtain ⟨i, protocols, arguments, hj, hi⟩ := hv.exists_interface hleads' hw
    obtain ⟨decl', e, hdecl', he, hsame⟩ := hnamed d i hi
    obtain rfl : decl = decl' := Option.some.inj (hdecl.symm.trans hdecl')
    exact ⟨j, i, protocols, arguments, e, hid, hj, he, hsame.trans hname⟩
  flag_of_seen hlong hseen := by
    obtain ⟨j, i, protocols, arguments, e, hid, hj, he, hname⟩ := hseen
    obtain ⟨n, u, v, hleads, hu, hv⟩ := h.exists_leadsTo_pointer hid
    obtain ⟨m, w, d, refs, args, hleads', hw, hi⟩ := hv.exists_leadsTo_objectPointer hj
    obtain ⟨decl, e', hdecl, he', hsame⟩ := hnamed d i hi
    obtain rfl : e = e' := Option.some.inj (he.symm.trans he')
    obtain ⟨hlongt, hlongv⟩ := not_or.mp (mt (hleads.along_iff hu).mpr hlong)
    exact isErrorOut_eq_true_iff.mpr ⟨v, d, refs, args, decl,
      peel?_of_not_behind hleads hlongt hu nofun, peel?_of_not_behind hleads' hlongv hw nofun,
      hdecl, hsame.symm.trans hname⟩
  not_flag hlong := by
    rw [Bool.eq_false_iff]
    intro hflag
    obtain ⟨v, d, refs, args, decl, hpointer, hobject, -⟩ := isErrorOut_eq_true_iff.mp hflag
    rcases hlong with hlong | ⟨n, u, v', hleads, hu, hlong⟩
    · cases hpointer.symm.trans (peel?_of_behind (hlong.mono (Nat.le_succ _)))
    · -- peeling can only have come to the same pointer
      have hmask : ¬unit.Masked t := hleads.not_masked fun name w hw => by
        cases hu.symm.trans hw
      obtain ⟨m, w, hleads', hw⟩ := leadsTo_of_peel? h hmask hpointer nofun
      obtain rfl : u = w := (hleads.unique hleads').2
      cases hu.symm.trans hw
      cases hobject.symm.trans (peel?_of_behind (hlong.mono (Nat.le_succ _)))

end Assembly

end InteropGraph
