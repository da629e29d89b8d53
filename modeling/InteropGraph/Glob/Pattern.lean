/-!
# Glob patterns

`Glob.parse` reads a pattern: `?` is any byte, `*` any bytes, `[…]` one byte of a class, `{a,b}`
alternatives, a backslash takes the next character as it is, and `**` as a whole component between
slashes is any number of components.
-/

namespace InteropGraph.Glob

/-- A part of a pattern. -/
inductive Token where
  | literal (c : Char)
  | anyByte
  | anyBytes
  /-- `**/` at the start. -/
  | leadingDirs
  /-- `/**` at the end. -/
  | trailingDirs
  /-- `/**/` in between. -/
  | innerDirs
  | oneOf (negated : Bool) (ranges : List (Char × Char))
  | alternatives (branches : List (List Token))
deriving Inhabited

/-- Why a text is no pattern. -/
inductive Refusal where
  | unclosedClass
  | invalidRange (first last : Char)
  | unopenedAlternatives
  | unclosedAlternatives
  | danglingEscape
deriving DecidableEq, Repr

/-- What is said of a text that is no pattern. -/
def Refusal.message : Refusal → String
  | .unclosedClass => "unclosed character class; missing ']'"
  | .invalidRange a b => "invalid range; '" ++ a.toString ++ "' > '" ++ b.toString ++ "'"
  | .unopenedAlternatives =>
    "unopened alternate group; missing '\x7b' (maybe escape '\x7d' with '[\x7d]'?)"
  | .unclosedAlternatives =>
    "unclosed alternate group; missing '\x7d' (maybe escape '\x7b' with '[\x7b]'?)"
  | .danglingEscape => "dangling '\\'"

/-! ### Classes -/

/-- A class that is being read: its ranges in reverse, and whether the last of them waits for its
upper end. -/
structure ClassState where
  ranges : List (Char × Char)
  inRange : Bool

/-- Adds `c` to the class, as the upper end of the last range if that is open. -/
def ClassState.add (st : ClassState) (c : Char) : Except Refusal ClassState :=
  match st.inRange, st.ranges with
  | true, (low, _) :: ranges =>
    if c < low then .error (.invalidRange low c) else .ok ⟨(low, c) :: ranges, false⟩
  | _, ranges => .ok ⟨(c, c) :: ranges, false⟩

/-- The ranges of a class that ends here. A minus sign that is left over stands for itself. -/
def ClassState.finish (st : ClassState) : List (Char × Char) :=
  (if st.inRange then ('-', '-') :: st.ranges else st.ranges).reverse

/-- Reads a class up to its closing bracket, after at least one of its characters. -/
def readClassRest (st : ClassState) :
    List Char → Except Refusal (List (Char × Char) × List Char)
  | [] => .error .unclosedClass
  | ']' :: s => .ok (st.finish, s)
  | '-' :: s =>
    if st.inRange then do
      let st ← st.add '-'
      readClassRest st s
    else readClassRest { st with inRange := true } s
  | c :: s => do
    let st ← st.add c
    readClassRest st s

/-- Reads a class after its opening bracket and its sign of negation. A bracket or a minus sign in
the first place stands for itself. -/
def readRanges : List Char → Except Refusal (List (Char × Char) × List Char)
  | [] => .error .unclosedClass
  | c :: s => readClassRest ⟨[(c, c)], false⟩ s

/-- Reads a class after its opening bracket. -/
def readClass (s : List Char) : Except Refusal (Token × List Char) :=
  match s with
  | '!' :: s | '^' :: s => (readRanges s).map fun (ranges, rest) => (.oneOf true ranges, rest)
  | s => (readRanges s).map fun (ranges, rest) => (.oneOf false ranges, rest)

theorem length_readClassRest {st : ClassState} {s : List Char} {r : List (Char × Char)}
    {rest : List Char} (h : readClassRest st s = .ok (r, rest)) : rest.length < s.length := by
  induction s generalizing st with
  | nil => simp [readClassRest] at h
  | cons c s ih =>
    unfold readClassRest at h
    split at h
    · simp_all
    · simp only [List.cons.injEq] at *
      obtain ⟨rfl, rfl⟩ := ‹_ ∧ _›
      simp only [Except.ok.injEq, Prod.mk.injEq] at h
      simp [h.2]
    · simp only [List.cons.injEq] at *
      obtain ⟨rfl, rfl⟩ := ‹_ ∧ _›
      split at h
      · cases hadd : st.add '-' with
        | error e => simp [hadd, bind, Except.bind] at h
        | ok st' => exact Nat.lt_succ_of_lt (ih (by simpa [hadd, bind, Except.bind] using h))
      · exact Nat.lt_succ_of_lt (ih h)
    · simp only [List.cons.injEq] at *
      obtain ⟨rfl, rfl⟩ := ‹_ ∧ _›
      cases hadd : st.add c with
      | error e => simp [hadd, bind, Except.bind] at h
      | ok st' => exact Nat.lt_succ_of_lt (ih (by simpa [hadd, bind, Except.bind] using h))

theorem length_readRanges {s : List Char} {r : List (Char × Char)} {rest : List Char}
    (h : readRanges s = .ok (r, rest)) : rest.length < s.length := by
  cases s with
  | nil => simp [readRanges] at h
  | cons c s => exact Nat.lt_succ_of_lt (length_readClassRest h)

theorem length_readClass {s : List Char} {t : Token} {rest : List Char}
    (h : readClass s = .ok (t, rest)) : rest.length < s.length := by
  have key : ∀ {neg : Bool} {s : List Char},
      (readRanges s).map (fun (ranges, rest) => (Token.oneOf neg ranges, rest)) = .ok (t, rest) →
      rest.length < s.length := by
    intro neg s h
    cases hr : readRanges s with
    | error e => simp [hr, Except.map] at h
    | ok p =>
      simp only [hr, Except.map, Except.ok.injEq, Prod.mk.injEq] at h
      exact h.2 ▸ length_readRanges hr
  unfold readClass at h
  split at h
  · exact Nat.lt_succ_of_lt (key h)
  · exact Nat.lt_succ_of_lt (key h)
  · exact key h

/-! ### Patterns -/

/-- An open group of alternatives: its complete branches in reverse, and the tokens, in reverse,
that stand before the group. -/
structure Group where
  branches : List (List Token)
  before : List Token

/-- A pattern that is being read: the tokens of the innermost branch in reverse, and the groups
around it, innermost first. -/
structure State where
  tokens : List Token
  groups : List Group

/-- Adds a token behind those that have been read. -/
def State.push (st : State) (t : Token) : State :=
  { st with tokens := t :: st.tokens }

/-- Begins a group of alternatives. -/
def State.openGroup (st : State) : State :=
  ⟨[], ⟨[], st.tokens⟩ :: st.groups⟩

/-- Ends the innermost group. -/
def State.closeGroup (st : State) : Except Refusal State :=
  match st.groups with
  | [] => .error .unopenedAlternatives
  | g :: groups =>
    .ok ⟨.alternatives (st.tokens.reverse :: g.branches).reverse :: g.before, groups⟩

/-- Begins the next branch of the innermost group; outside of groups a comma is literal. -/
def State.comma (st : State) : State :=
  match st.groups with
  | [] => st.push (.literal ',')
  | g :: groups => ⟨[], ⟨st.tokens.reverse :: g.branches, g.before⟩ :: groups⟩

/-- Whether a branch may end before `s`. -/
def State.endsBefore (st : State) : List Char → Bool
  | [] => true
  | c :: _ => !st.groups.isEmpty && (c = ',' || c = '}')

/-- Whether a double star after the character `before` may begin a component: after a slash, or
after the sign that begins a branch. -/
def State.componentAfter (st : State) (before : Option Char) : Bool :=
  before = some '/' || (!st.groups.isEmpty && (before = some ',' || before = some '{'))

/-- Puts a double star for whole components in the place of the separator before it; it merges with
one that stands there already. -/
def State.pushDirs (st : State) (t : Token) : State :=
  match st.tokens with
  | .leadingDirs :: _ | .trailingDirs :: _ => st
  | _ :: tokens => { st with tokens := t :: tokens }
  | [] => st.push t

/-- Two stars that are no whole component. -/
def State.pushStars (st : State) : State :=
  (st.push .anyBytes).push .anyBytes

/-- Reads a pattern; `before` is the character in front of the text. -/
def parseFrom (st : State) (before : Option Char) (s : List Char) : Except Refusal State :=
  match s with
  | [] => .ok st
  | '*' :: '*' :: s =>
    if st.tokens.isEmpty then
      match s with
      | [] => parseFrom (st.push .leadingDirs) (some '*') []
      | '/' :: s => parseFrom (st.push .leadingDirs) (some '/') s
      | s => parseFrom st.pushStars (some '*') s
    else if st.componentAfter before then
      if st.endsBefore s then parseFrom (st.pushDirs .trailingDirs) (some '*') s
      else
        match s with
        | '/' :: s => parseFrom (st.pushDirs .innerDirs) (some '/') s
        | s => parseFrom st.pushStars (some '*') s
    else parseFrom st.pushStars (some '*') s
  | '*' :: s => parseFrom (st.push .anyBytes) (some '*') s
  | '?' :: s => parseFrom (st.push .anyByte) (some '?') s
  | '[' :: s =>
    match h : readClass s with
    | .error e => .error e
    | .ok (t, rest) =>
      have := length_readClass h
      parseFrom (st.push t) (some ']') rest
  | '{' :: s => parseFrom st.openGroup (some '{') s
  | '}' :: s =>
    match st.closeGroup with
    | .error e => .error e
    | .ok st => parseFrom st (some '}') s
  | ',' :: s => parseFrom st.comma (some ',') s
  | '\\' :: [] => .error .danglingEscape
  | '\\' :: c :: s => parseFrom (st.push (.literal c)) (some c) s
  | c :: s => parseFrom (st.push (.literal c)) (some c) s
termination_by s.length
decreasing_by all_goals simp_wf <;> omega

/-- Reads a pattern. -/
def parse (s : String) : Except Refusal (List Token) :=
  match parseFrom ⟨[], []⟩ none s.toList with
  | .error e => .error e
  | .ok st => if st.groups.isEmpty then .ok st.tokens.reverse else .error .unclosedAlternatives

end InteropGraph.Glob
