/-!
# Disks

A command reads and writes whole files, on any disk that can do so.
-/

namespace InteropGraph

/-- Why a file cannot be read or written. -/
inductive DiskFailure where
  | missing
  | directory
  | notDirectory
  | notText
  | other (message : String)
deriving DecidableEq, Repr

/-- What the system calls a failure. -/
def DiskFailure.message : DiskFailure → String
  | .missing => "No such file or directory (os error 2)"
  | .directory => "Is a directory (os error 21)"
  | .notDirectory => "Not a directory (os error 20)"
  | .notText => "stream did not contain valid UTF-8"
  | .other message => message

/-- A disk as a command sees it. -/
class Disk (m : Type → Type) where
  read : (path : String) → m (Except DiskFailure String)
  write : (path : String) → (text : String) → m (Except DiskFailure Unit)

/-- Whether there is a file at a path. -/
def Disk.isFile [Monad m] [Disk m] (path : String) : m Bool := do
  match ← Disk.read path with
  | .error .missing | .error .directory | .error .notDirectory => return false
  | _ => return true

end InteropGraph
