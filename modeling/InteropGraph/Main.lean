import InteropGraph.Command.Generate

/-!
# The program

Runs the command on the disk of the machine.
-/

namespace InteropGraph

/-- The failure of a disk that an error of the machine tells of. -/
def DiskFailure.ofError : IO.Error → DiskFailure
  | .noFileOrDirectory .. | .noSuchThing .. => .missing
  | .inappropriateType _ code details =>
    if code = 21 then .directory
    else if code = 20 then .notDirectory
    else .other s!"{details} (os error {code})"
  | .permissionDenied _ code details | .resourceExhausted _ code details =>
    .other s!"{details} (os error {code})"
  | e => .other e.toString

instance : Disk IO where
  read path := do
    try
      let bytes ← IO.FS.readBinFile path
      match String.fromUTF8? bytes with
      | some text => return .ok text
      | none => return .error .notText
    catch e => return .error (.ofError e)
  write path text := do
    try
      IO.FS.writeFile path text
      return .ok ()
    catch e => return .error (.ofError e)

end InteropGraph

/-- Runs the command, prints what it says and gives its exit code. -/
def main (arguments : List String) : IO UInt32 := do
  let o ← InteropGraph.Command.run arguments
  IO.print o.out
  IO.eprint o.err
  return UInt32.ofNat o.code
