import InteropGraph.Failure
import InteropGraph.Options

/-!
# Availability windows

The versions between which a declaration can be used. `Window.check` refuses a declaration that
lies outside of the settings: one that is deprecated or not yet introduced in the target version,
or obsolete for the toolchain.
-/

namespace InteropGraph

/-- The versions that bound the use of a declaration. -/
structure Window where
  introduced : Option Version
  deprecated : Option Version
  obsoleted : Option Version
deriving DecidableEq, Repr

namespace Window

/-- The window without bounds. -/
def unbounded : Window := ⟨none, none, none⟩

/-- The bound, if something is known of it and of the version that it is compared with. -/
def bound? (bound : Option Version) (against : Version) : Option Version :=
  bound.filter fun v => !v.isUnknown && !against.isUnknown

/-- The bound that has been reached by `version`, if there is one. -/
def reached? (bound : Option Version) (version : Version) : Option Version :=
  (bound? bound version).filter version.isAtOrAfter

/-- The bound that `version` still has to reach, if there is one. -/
def ahead? (bound : Option Version) (version : Version) : Option Version :=
  (bound? bound version).filter (·.isAfter version)

/-- Refuses what cannot be used with the given versions. Deprecation is looked at first, then
obsolescence, then introduction. -/
def check (w : Window) (target toolchain : Version) : Except Failure Unit :=
  match reached? w.deprecated target, reached? w.obsoleted toolchain,
      ahead? w.introduced target with
  | some v, _, _ => .error (.skipped s!"deprecated in {v.display} (target {target.display})")
  | none, some v, _ =>
    .error (.skipped s!"obsoleted in {v.display} (toolchain {toolchain.display})")
  | none, none, some v =>
    .error (.skipped s!"introduced in {v.display} (target {target.display})")
  | none, none, none => .ok ()

/-- The window of a declaration on the platform of the settings; a failure if the declaration cannot
be used there. -/
def ofDeclaration (s : Settings) (d : Declaration) : Except Failure Window := do
  if d.attributes.unavailable then
    throw (.skipped s!"'{d.name}' is marked unavailable")
  match d.availabilityOn? s.platform with
  | none => return .unbounded
  | some a =>
    if a.unavailable then
      throw (.skipped s!"'{d.name}' is unavailable on {s.platform}")
    let w : Window := ⟨a.introduced, a.deprecated, a.obsoleted⟩
    w.check s.targetVersion s.toolchainVersion
    return w

end Window

end InteropGraph
