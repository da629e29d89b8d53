import InteropGraph.Window
import Mathlib.Data.List.Lex
import Mathlib.Order.UpperLower.Basic

/-!
# The releases that a window admits

Comparing versions is no order, since an unknown component equals everything: `11.2` is later than
`11.1`, and `11` equals both. Against a release, of which all components are known, it comes down to
an order all the same. A bound divides the releases at its known numbers (`compare_eq_lt_iff`), so
that those from a bound on are an upper set and those before it a lower set, and what a window
admits lies between two bounds (`window_admits`).
-/

namespace InteropGraph

namespace Version

/-! ### Known numbers -/

/-- The numbers before the first unknown component. -/
def leading : List (Option UInt32) → List Nat
  | some n :: cs => n.toNat :: leading cs
  | _ => []

/-- The numbers of a version before its first unknown component. -/
def known (v : Version) : List Nat := leading v.components

theorem length_leading_le (cs : List (Option UInt32)) : (leading cs).length ≤ cs.length := by
  induction cs using leading.induct with
  | case1 n cs ih => exact Nat.succ_le_succ ih
  | case2 cs hcs =>
    rw [leading]
    · exact Nat.zero_le _
    · exact hcs

/-- A version without gaps is known as far as it goes. -/
theorem length_leading_of_complete {cs : List (Option UInt32)} (h : ∀ c ∈ cs, c.isSome = true) :
    (leading cs).length = cs.length := by
  induction cs with
  | nil => rfl
  | cons c cs ih =>
    obtain ⟨n, rfl⟩ := Option.isSome_iff_exists.mp (h c List.mem_cons_self)
    exact congrArg Nat.succ (ih fun c hc => h c (List.mem_cons_of_mem _ hc))

/-! ### Comparing -/

/-- Exchanging two versions exchanges what comes out of comparing them. -/
theorem compareComponents_swap (as bs : List (Option UInt32)) :
    (compareComponents as bs).swap = compareComponents bs as := by
  induction as, bs using compareComponents.induct with
  | case1 a as b bs ih =>
    have hnumbers : (compare a b).swap = compare b a := Std.OrientedCmp.eq_swap.symm
    rw [compareComponents, compareComponents, Ordering.swap_then, ih, hnumbers]
  | case2 as bs h =>
    rw [compareComponents, compareComponents]
    · rfl
    · exact fun b bs' a as' hbs has => h a as' b bs' has hbs
    · exact h

/-- One version is earlier than another if its numbers are, up to where one side is unknown. -/
theorem compareComponents_eq_lt_iff (as bs : List (Option UInt32)) :
    compareComponents as bs = .lt ↔
      (leading as).take (leading bs).length < (leading bs).take (leading as).length := by
  induction as, bs using compareComponents.induct with
  | case1 a as b bs ih =>
    rw [compareComponents, Ordering.then_eq_lt, ih, Std.compare_eq_lt, Std.compare_eq_iff_eq]
    simp only [leading, List.length_cons, List.take_succ_cons, List.cons_lt_cons_iff,
      UInt32.lt_iff_toNat_lt, UInt32.toNat_inj]
  | case2 as bs h =>
    have hleading : leading as = [] ∨ leading bs = [] := by
      match as, bs with
      | some a :: as, some b :: bs => exact (h a as b bs rfl rfl).elim
      | [], _ | none :: _, _ => exact .inl rfl
      | _, [] | _, none :: _ => exact .inr rfl
    rw [compareComponents]
    · rcases hleading with h | h <;> rw [h] <;> simp
    · exact h

end Version

/-! ### Releases -/

/-- A version of which every component is known. -/
structure Release where
  version : Version
  complete : ∀ c ∈ version.components, c.isSome = true

/-- Releases are ordered by their first numbers that differ. -/
instance : Preorder Release := Preorder.lift fun r => r.version.known

namespace Release

variable {r s : Release} {v : Version}

/-- As many numbers of a release as are known of a bound. -/
def upTo (r : Release) (bound : Version) : List Nat :=
  r.version.known.take bound.known.length

theorem length_known (r : Release) : r.version.known.length = 3 :=
  Version.length_leading_of_complete r.complete

/-- A release and a version are compared up to where the version is known. -/
theorem compare_eq_lt_iff : r.version.compare v = .lt ↔ r.upTo v < v.known := by
  have hwhole : v.known.take r.version.known.length = v.known := by
    rw [r.length_known]
    exact List.take_of_length_le (Version.length_leading_le v.components)
  unfold Version.compare
  rw [Version.compareComponents_eq_lt_iff]
  show r.upTo v < v.known.take r.version.known.length ↔ _
  rw [hwhole]

/-- A release is at or after a version if it is so as far as the version is known. -/
theorem isAtOrAfter_iff : r.version.isAtOrAfter v = true ↔ v.known ≤ r.upTo v := by
  rw [Version.isAtOrAfter, bne_iff_ne, ne_eq, compare_eq_lt_iff, not_lt]

/-- A version is after a release if it is so as far as the version is known. -/
theorem isAfter_iff : v.isAfter r.version = true ↔ r.upTo v < v.known := by
  rw [Version.isAfter, beq_iff_eq, ← compare_eq_lt_iff, Version.compare, Version.compare,
    ← Version.compareComponents_swap, Ordering.swap_eq_gt]

theorem not_isUnknown (r : Release) : r.version.isUnknown = false := by
  have hmajor : r.version.major.isSome = true := r.complete _ List.mem_cons_self
  unfold Version.isUnknown
  rw [Option.isNone_eq_false_iff.mpr hmajor]
  rfl

/-! ### The releases on one side of a bound -/

theorem lt_of_take_lt_take {l l' : List Nat} {n : Nat} (h : l.take n < l'.take n) : l < l' := by
  induction n generalizing l l' with
  | zero => exact absurd h (lt_irrefl _)
  | succ n ih =>
    cases l' with
    | nil => exact absurd h (List.not_lt_nil _)
    | cons b l' =>
      cases l with
      | nil => exact List.nil_lt_cons b l'
      | cons a l =>
        rw [List.take_succ_cons, List.take_succ_cons, List.cons_lt_cons_iff] at h
        exact List.cons_lt_cons_iff.mpr (h.imp_right fun ⟨hab, hlt⟩ => ⟨hab, ih hlt⟩)

/-- A later release is later or the same as far as a bound is known. -/
theorem upTo_mono (bound : Version) : Monotone fun r : Release => r.upTo bound :=
  fun _ _ hle => not_lt.mp fun h => hle.not_gt (lt_of_take_lt_take h)

/-- The releases that are not earlier than the bound: all of them, if there is none or nothing is
known of it. -/
def since (bound : Option Version) : Set Release :=
  {r | ∀ b ∈ bound, b.isUnknown = true ∨ b.known ≤ r.upTo b}

/-- The releases that are earlier than the bound: all of them, if there is none or nothing is known
of it. -/
def before (bound : Option Version) : Set Release :=
  {r | ∀ b ∈ bound, b.isUnknown = true ∨ r.upTo b < b.known}

variable {bound : Option Version}

/-- What has been introduced stays. -/
theorem isUpperSet_since (bound : Option Version) : IsUpperSet (since bound) :=
  fun _ _ hle h b hb => (h b hb).imp_right fun hr => hr.trans (upTo_mono b hle)

/-- What has gone does not come back. -/
theorem isLowerSet_before (bound : Option Version) : IsLowerSet (before bound) :=
  fun _ _ hle h b hb => (h b hb).imp_right fun hr => (upTo_mono b hle).trans_lt hr

end Release

namespace Window

open Release

variable {bound : Option Version} {target toolchain : Release}

/-- A bound of which nothing is known is none. -/
theorem mem_bound?_iff {b : Version} {r : Release} :
    b ∈ bound? bound r.version ↔ b ∈ bound ∧ ¬b.isUnknown = true := by
  rw [bound?, r.not_isUnknown, Option.mem_def, Option.filter_eq_some_iff, Bool.not_false,
    Bool.and_true, Bool.not_eq_true', Bool.not_eq_true, Option.mem_def]

/-- A bound does not count against a release if nothing is known of it or the test fails. -/
theorem filter_bound?_eq_none_iff {test : Version → Bool} {r : Release} :
    (bound? bound r.version).filter test = none ↔
      ∀ b ∈ bound, b.isUnknown = true ∨ ¬test b = true := by
  rw [Option.filter_eq_none_iff]
  simp only [← Option.mem_def, mem_bound?_iff, and_imp, or_iff_not_imp_left]

/-- Exactly the releases before a bound have not reached it. -/
theorem reached?_eq_none_iff {r : Release} :
    reached? bound r.version = none ↔ r ∈ before bound := by
  rw [reached?, filter_bound?_eq_none_iff]
  simp only [isAtOrAfter_iff, not_le]
  rfl

/-- Exactly the releases since a bound have it not ahead. -/
theorem ahead?_eq_none_iff {r : Release} :
    ahead? bound r.version = none ↔ r ∈ since bound := by
  rw [ahead?, filter_bound?_eq_none_iff]
  simp only [isAfter_iff, not_lt]
  rfl

/-- A window admits what none of its three bounds keeps out. -/
theorem check_eq_ok_iff (w : Window) (target toolchain : Version) :
    w.check target toolchain = .ok () ↔ reached? w.deprecated target = none ∧
      reached? w.obsoleted toolchain = none ∧ ahead? w.introduced target = none := by
  unfold check
  split
  next h => simp [h]
  next h h' => simp [h, h']
  next h h' h'' => simp [h, h', h'']
  next h h' h'' => simp [h, h', h'']

/-- The target releases that are not refused with a toolchain. -/
def targets (w : Window) (toolchain : Release) : Set Release :=
  {target | w.check target.version toolchain.version = .ok ()}

/-- The toolchains that are not refused with a target release. -/
def toolchains (w : Window) (target : Release) : Set Release :=
  {toolchain | w.check target.version toolchain.version = .ok ()}

/-- For releases the bounds are sets, one of them for the toolchain. -/
theorem check_release_iff (w : Window) (target toolchain : Release) :
    w.check target.version toolchain.version = .ok () ↔
      target ∈ since w.introduced ∧ target ∈ before w.deprecated ∧
        toolchain ∈ before w.obsoleted := by
  rw [check_eq_ok_iff, reached?_eq_none_iff, reached?_eq_none_iff, ahead?_eq_none_iff]
  exact ⟨fun ⟨hdeprecated, hobsoleted, hintroduced⟩ => ⟨hintroduced, hdeprecated, hobsoleted⟩,
    fun ⟨hintroduced, hdeprecated, hobsoleted⟩ => ⟨hdeprecated, hobsoleted, hintroduced⟩⟩

/-- Between two targets that are admitted all are. -/
theorem ordConnected_targets (w : Window) (toolchain : Release) :
    (w.targets toolchain).OrdConnected := by
  refine ⟨fun t ht t' ht' s hs => ?_⟩
  obtain ⟨hsince, -, htoolchain⟩ := (w.check_release_iff t toolchain).mp ht
  obtain ⟨-, hbefore, -⟩ := (w.check_release_iff t' toolchain).mp ht'
  exact (w.check_release_iff s toolchain).mpr
    ⟨isUpperSet_since _ hs.1 hsince, isLowerSet_before _ hs.2 hbefore, htoolchain⟩

/-- Without an end, whatever is later than a target that is admitted is admitted too. -/
theorem isUpperSet_targets {w : Window} (h : ∀ b ∈ w.deprecated, b.isUnknown = true)
    (toolchain : Release) : IsUpperSet (w.targets toolchain) := by
  intro t t' hle ht
  obtain ⟨hsince, -, htoolchain⟩ := (w.check_release_iff t toolchain).mp ht
  exact (w.check_release_iff t' toolchain).mpr
    ⟨isUpperSet_since _ hle hsince, fun b hb => .inl (h b hb), htoolchain⟩

/-- Without a beginning, whatever is earlier is. -/
theorem isLowerSet_targets {w : Window} (h : ∀ b ∈ w.introduced, b.isUnknown = true)
    (toolchain : Release) : IsLowerSet (w.targets toolchain) := by
  intro t t' hle ht
  obtain ⟨-, hbefore, htoolchain⟩ := (w.check_release_iff t toolchain).mp ht
  exact (w.check_release_iff t' toolchain).mpr
    ⟨fun b hb => .inl (h b hb), isLowerSet_before _ hle hbefore, htoolchain⟩

/-- A toolchain that is earlier than one that is admitted is admitted. -/
theorem isLowerSet_toolchains (w : Window) (target : Release) :
    IsLowerSet (w.toolchains target) := by
  intro t t' hle ht
  obtain ⟨hsince, hbefore, htoolchain⟩ := (w.check_release_iff target t).mp ht
  exact (w.check_release_iff target t').mpr
    ⟨hsince, hbefore, isLowerSet_before _ hle htoolchain⟩

/-- **What a window admits.** For releases, a window admits a target and a toolchain exactly if the
target is not earlier than the introduction and earlier than the deprecation, and the toolchain is
earlier than the obsolescence, where a bound is compared up to its first unknown component and an
unknown one does not count. So the targets that are admitted have no gaps, those of a window without
deprecation go on for ever, and those of a window without introduction have always been there; what
a toolchain admits is admitted by all earlier ones. Of any two versions, known or not, one compares
to the other as the reverse of how the other compares to it. -/
theorem window_admits (w : Window) :
    (∀ target toolchain : Release, w.check target.version toolchain.version = .ok () ↔
      target ∈ since w.introduced ∧ target ∈ before w.deprecated ∧
        toolchain ∈ before w.obsoleted) ∧
    (∀ toolchain : Release, (w.targets toolchain).OrdConnected ∧
      ((∀ b ∈ w.deprecated, b.isUnknown = true) → IsUpperSet (w.targets toolchain)) ∧
      ((∀ b ∈ w.introduced, b.isUnknown = true) → IsLowerSet (w.targets toolchain))) ∧
    (∀ target : Release, IsLowerSet (w.toolchains target)) ∧
    ∀ v v' : Version, v.compare v' = (v'.compare v).swap := by
  refine ⟨w.check_release_iff, fun toolchain => ⟨w.ordConnected_targets toolchain,
    fun h => isUpperSet_targets h toolchain, fun h => isLowerSet_targets h toolchain⟩,
    w.isLowerSet_toolchains, fun v v' => ?_⟩
  exact (Version.compareComponents_swap v'.components v.components).symm

/-- What was introduced in `11` is admitted with `11.0.1` and so with `12.4.0`. What was deprecated
in `13` is admitted with `12.4.0` and so with `11.0.1`. -/
theorem window_admits_eleven :
    let introduced : Window := ⟨some ⟨some 11, none, none⟩, some .unknown, none⟩
    let deprecated : Window := ⟨none, some ⟨some 13, none, none⟩, none⟩
    let old : Release := ⟨.ofNumbers 11 0 1, List.all_eq_true.mp rfl⟩
    let new : Release := ⟨.ofNumbers 12 4 0, List.all_eq_true.mp rfl⟩
    (∀ b ∈ introduced.deprecated, b.isUnknown = true) ∧
      (∀ b ∈ deprecated.introduced, b.isUnknown = true) ∧ old ≤ new ∧
      ∀ toolchain, (old ∈ introduced.targets toolchain ∧ new ∈ introduced.targets toolchain) ∧
        new ∈ deprecated.targets toolchain ∧ old ∈ deprecated.targets toolchain := by
  intro introduced deprecated old new
  have hnever : ∀ b ∈ introduced.deprecated, b.isUnknown = true := by decide
  have halways : ∀ b ∈ deprecated.introduced, b.isUnknown = true := nofun
  have hle : old ≤ new := by decide
  refine ⟨hnever, halways, hle, fun toolchain => ?_⟩
  have hold : old ∈ introduced.targets toolchain := by
    refine ((window_admits introduced).1 old toolchain).mpr ⟨?_, ?_, nofun⟩
    · exact fun b hb => .inr (by obtain rfl := Option.some.inj hb; decide)
    · exact fun b hb => .inl (hnever b hb)
  have hnew : new ∈ deprecated.targets toolchain := by
    refine ((window_admits deprecated).1 new toolchain).mpr ⟨nofun, ?_, nofun⟩
    exact fun b hb => .inr (by obtain rfl := Option.some.inj hb; decide)
  exact ⟨⟨hold, ((window_admits introduced).2.1 toolchain).2.1 hnever hle hold⟩,
    hnew, ((window_admits deprecated).2.1 toolchain).2.2 halways hle hnew⟩

end Window

end InteropGraph
