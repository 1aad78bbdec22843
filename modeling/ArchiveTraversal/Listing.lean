import ArchiveTraversal.Chunks
import ArchiveTraversal.Reader

/-!
Listing an archive: every header is read and no data. Format and filters are taken after the last
header, when the decoder knows them. A header that cannot be read leaves no partial listing.
-/

namespace ArchiveTraversal

structure Listing where
  format : Option String
  filters : List String
  members : List MemberInfo
  totalSize : Int
  deriving DecidableEq, Repr

namespace Session

theorem advance_headers (session : Session) (host : Host) {header : Header}
    (moved : (session.advance host).value = .ok (some header)) :
    (session.advance host).session.handle.headers.length < session.handle.headers.length := by
  have shorter : session.handle.nextHeader.1.lent ≠ none →
      session.handle.nextHeader.2.headers.length < session.handle.headers.length := by
    cases left : session.handle.headers <;> simp [Decoder.Handle.nextHeader, left]
  unfold advance at moved ⊢
  split at moved
  · simp at moved
  · simp at moved
  all_goals
    dsimp only at moved ⊢
    split at moved
    · rename_i lent
      exact shorter (by simp [lent])
    · simp at moved
    · simp at moved

def collectMembers (session : Session) (host : Host) :
    Outcome (Except ArchiveError (List MemberInfo)) :=
  let moved := session.advance host
  match _taken : moved.value with
  | .error error => ⟨.error error, moved.session, moved.host⟩
  | .ok none => ⟨.ok [], moved.session, moved.host⟩
  | .ok (some header) =>
      let rest := moved.session.collectMembers moved.host
      ⟨rest.value.map (header.info :: ·), rest.session, rest.host⟩
termination_by session.handle.headers.length
decreasing_by exact advance_headers session host _taken

end Session

namespace Listing

/-- Negative sizes are unknown ones and count for nothing. The sum is the exact one: in a word of 64
bits it is there only as long as it stays below `signed64Bound`. Where that matters, as for a
snapshot to be read back, `Listing.Fits` says so. -/
def total : List MemberInfo → Int
  | [] => 0
  | member :: rest => max member.size 0 + total rest

def ofSession (session : Session) (members : List MemberInfo) : Listing where
  format := session.formatName
  filters := session.filters
  members := members
  totalSize := total members

def ofArchive (path : Path) (options : ReaderOptions) (host : Host) :
    Except ArchiveError Listing × Host :=
  match (Reader.new path options).openSession host with
  | (.refused error _, host) => (.error error, host)
  | (.opened session, host) =>
      let walked := session.collectMembers host
      (walked.value.map (ofSession walked.session), (walked.session.close walked.host).2.2)

end Listing

end ArchiveTraversal
