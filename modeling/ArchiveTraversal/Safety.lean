import ArchiveTraversal.Failure
import ArchiveTraversal.Member

/-!
Checks between an archive and the disk. A member's path is accepted when it is relative, has no
segment that climbs, and names something; it then keeps its names and loses everything else. Only
regular files and directories are accepted. The byte total may reach its limit and not pass it.
-/

namespace ArchiveTraversal.Safety

/-- A path built up by the steps of another one, name by name. A step up is refused where it
stands. -/
def normalize (path built : Path) : List Path.Component → Except SecurityError Path
  | [] => .ok built
  | .name name :: rest => normalize path (built.join name) rest
  | .here :: rest => normalize path built rest
  | .up :: _ => .error (.pathTraversal ("Path contains '..' component: " ++ path.display))
  | .root :: _ => .error (.absolutePath path.display)

/-- The accepted form of a member's path. A climbing segment is reported before emptiness. -/
def memberPath (path : Path) : Except SecurityError Path :=
  if path.isAbsolute then .error (.absolutePath path.display)
  else match normalize path [] path.components with
    | .error error => .error error
    | .ok normalized =>
        if normalized = [] then .error (.pathTraversal "Path normalizes to empty")
        else .ok normalized

def checkKind (name : String) : MemberKind → Except SecurityError Unit
  | .file => .ok ()
  | .directory => .ok ()
  | .symlink => .error (.unsafeEntryType ("symbolic link: " ++ name))
  | .other => .error (.unsafeEntryType ("special file: " ++ name))

/-- Where a member may be written, below an output directory. -/
def destination (info : MemberInfo) : Except SecurityError Path :=
  match memberPath (Text.Utf8.encode info.path) with
  | .error error => .error error
  | .ok relative =>
      match checkKind info.path info.kind with
      | .error error => .error error
      | .ok () => .ok relative

/-- The total may reach the limit and not pass it. -/
def checkSize (current : Nat) : Option Nat → Except UnpackError Unit
  | none => .ok ()
  | some limit => if current > limit then .error (.sizeLimitExceeded current limit) else .ok ()

end ArchiveTraversal.Safety
