import InteropGraph.Assembly.Declarations

/-!
# Requesting entities

`request` gives the entity of a declaration. A declaration that has an answer is not constructed
again: its slot is the answer while its construction is under way, and what came of the
construction afterwards. Since a construction only begins declarations that are not under way,
requests end.
-/

namespace InteropGraph.Assembly

variable (unit : SourceUnit) (settings : Settings)

/-- Requests the entity of `d` from inside the constructions of `active`. The name of a member is
looked up under `owner`. -/
def request (active : List DeclRef) (d : DeclRef) (owner : String) : Assemble EntityId := do
  match (← get).answer? d with
  | some answer =>
    modify countHit
    ofExcept answer
  | none =>
    match _found : unit.declaration? d with
    | none => throw (.invalid s!"dangling declaration id {d.index.toNat}")
    | some decl =>
      -- what is under way has an answer, so this only shows that requests end
      if _fresh : d ∈ active then throw (.invalid s!"declaration id {d.index.toNat} is under way")
      else
        construct d <| build unit settings
          (fun other owner => request (d :: active) other owner) d decl owner
termination_by unseen unit.declRefs active
decreasing_by exact unseen_cons_lt (SourceUnit.mem_declRefs _found) _fresh

/-- Requests the entity of `d`. -/
def create (d : DeclRef) (owner : String) : Assemble EntityId :=
  request unit settings [] d owner

/-- Constructs the entity of `d` anew, in a new slot, whatever came of it before. -/
def recreate (d : DeclRef) (owner : String) : Assemble EntityId :=
  match unit.declaration? d with
  | none => throw (.invalid s!"dangling declaration id {d.index.toNat}")
  | some decl => construct d (build unit settings (request unit settings [d]) d decl owner)

end InteropGraph.Assembly
