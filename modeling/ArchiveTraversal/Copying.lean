import ArchiveTraversal.Chunks
import ArchiveTraversal.Sink

/-!
Copying the rest of a member's data into a sink. The count is of bytes accepted; a sink that fails
ends the copy and leaves the session where the chunk in hand ended.
-/

namespace ArchiveTraversal.Session

variable {State : Type}

def copier (sink : Sink State) : Visitor (Nat × State) IoError where
  halt _ := none
  visit gathered chunk :=
    match sink.writeAll gathered.2 chunk with
    | (state, none) => ((gathered.1 + chunk.length, state), none)
    | (state, some error) => ((gathered.1, state), some error)

def copyTo (sink : Sink State) (state : State) (session : Session) (host : Host) :
    Outcome (Except CopyError Nat × State) :=
  let walked := session.forEachChunk (copier sink) (0, state) host
  let result : Except CopyError Nat := match walked.value.1 with
    | .complete => .ok walked.value.2.1
    | .unreadable error => .error (.archive error)
    | .stopped error => .error (.io error)
  ⟨(result, walked.value.2.2), walked.session, walked.host⟩

end ArchiveTraversal.Session
