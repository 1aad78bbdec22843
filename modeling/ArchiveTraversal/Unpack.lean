import ArchiveTraversal.Listing
import ArchiveTraversal.Safety

/-!
Unpacking an archive below an output directory. Members with unsafe paths or kinds are passed over,
as is a file where a directory stands; a file that stands where a directory is needed gives way.
The cancel flag is asked before each header and before each chunk, and the size limit before a
chunk is written. Whatever ends the run, the decoder is freed and finished members stay on disk.
-/

namespace ArchiveTraversal

structure Elapsed where
  seconds : Nat := 0
  nanoseconds : Nat := 0
  deriving DecidableEq, Repr

/-- What an unpack has done so far, and at its end. The numbers do not run over: a word of 64 bits
holds them as long as they stay below `unsigned64Bound`. Where that matters, as for a snapshot to be
read back, `Tally.Counted` says so. -/
structure Tally where
  files : Nat := 0
  directories : Nat := 0
  skipped : Nat := 0
  bytes : Nat := 0
  elapsed : Elapsed := {}
  deriving DecidableEq, Repr

/-- The observer's answer to a report: whether to go on, and whether it raised the cancel flag. -/
structure Reaction where
  proceed : Bool := true
  raisesCancel : Bool := false
  deriving DecidableEq, Repr

/-- Told after each file its number from one, the member's name and the bytes written so far. -/
abbrev Observer := Nat → String → Nat → Reaction

structure UnpackJob where
  output : Path
  sizeLimit : Option Nat
  observer : Observer

namespace Host

/-- Removes the files that stand at the given paths, outermost first. -/
def clearFiles (host : Host) : List Path → Except IoError Unit × Host
  | [] => (.ok (), host)
  | path :: deeper =>
      if host.tree.isFile path then
        let host := host.event (.fileReplaced path)
        match host.tree.removeFile path with
        | .error error => (.error error, host)
        | .ok tree => { host with tree := tree }.clearFiles deeper
      else host.clearFiles deeper

/-- A file may stand at any directory on the way to a member, but not at the member itself. -/
def clearFileAncestors (host : Host) (output relative : Path) : Except IoError Unit × Host :=
  host.clearFiles (output.leadingTo relative.names)

def makeDirectories (host : Host) (path : Path) : Except IoError Unit × Host :=
  let (result, tree) := host.tree.makeDirectories path
  (result, { host with tree := tree })

def placeDirectory (host : Host) (path : Path) : Except IoError Unit × Host :=
  if host.tree.isFile path then
    match host.tree.removeFile path with
    | .error error => (.error error, host)
    | .ok tree => { host with tree := tree }.makeDirectories path
  else host.makeDirectories path

def fill (host : Host) (location : Location) (content : Bytes) : Host :=
  { host with tree := host.tree.put location (.file content) }

end Host

/-- The chunks written to one file, last one first, and the bytes written by the whole run. -/
structure Written where
  chunks : List Bytes := []
  total : Nat

namespace Written

def content (written : Written) : Bytes := written.chunks.reverse.flatten

end Written

namespace UnpackJob

def writer (job : UnpackJob) : Visitor Written UnpackError where
  halt host := if host.cancelled then some .cancelled else none
  visit written chunk :=
    let total := written.total + chunk.length
    match Safety.checkSize total job.sizeLimit with
    | .error error => (written, some error)
    | .ok () => (⟨chunk :: written.chunks, total⟩, none)

def report (job : UnpackJob) (name : String) (tally : Tally) (host : Host) :
    Except UnpackError Tally × Host :=
  let reaction := job.observer tally.files name tally.bytes
  let host := (host.record (.progress name tally.bytes)).raiseIf reaction.raisesCancel
  (if reaction.proceed then .ok tally else .error .cancelled, host)

/-- Copies the current member's data into a file that has just been created. -/
def fillFile (job : UnpackJob) (name : String) (location : Location) (tally : Tally)
    (session : Session) (host : Host) : Outcome (Except UnpackError Tally) :=
  let walked := session.forEachChunk job.writer { total := tally.bytes } host
  let host := walked.host.fill location walked.value.2.content
  match walked.value.1 with
  | .unreadable error => ⟨.error (.archive error), walked.session, host⟩
  | .stopped error => ⟨.error error, walked.session, host⟩
  | .complete =>
      let tally := { tally with files := tally.files + 1, bytes := walked.value.2.total }
      let (result, host) := job.report name tally (host.event (.memberWritten name))
      ⟨result, walked.session, host⟩

def unpackFile (job : UnpackJob) (name : String) (destination : Path) (tally : Tally)
    (session : Session) (host : Host) : Outcome (Except UnpackError Tally) :=
  match host.makeDirectories (destination.parent?.getD []) with
  | (.error error, host) => ⟨.error (.io error), session, host⟩
  | (.ok (), host) =>
      if host.tree.isDirectory destination then
        ⟨.ok { tally with skipped := tally.skipped + 1 }, session, host.event (.memberBlocked name)⟩
      else
        match host.tree.createFile destination with
        | .error error => ⟨.error (.io error), session, host⟩
        | .ok (location, tree) =>
            job.fillFile name location tally session { host with tree := tree }

/-- One member, whatever it is. Passing it over is no failure. -/
def unpackMember (job : UnpackJob) (info : MemberInfo) (tally : Tally)
    (session : Session) (host : Host) : Outcome (Except UnpackError Tally) :=
  match Safety.destination info with
  | .error error =>
      ⟨.ok { tally with skipped := tally.skipped + 1 }, session,
        host.event (.memberSkipped info.path error)⟩
  | .ok relative =>
      let destination := job.output.join relative
      match host.clearFileAncestors job.output relative with
      | (.error error, host) => ⟨.error (.io error), session, host⟩
      | (.ok (), host) =>
          if info.isDirectory then
            match host.placeDirectory destination with
            | (.error error, host) => ⟨.error (.io error), session, host⟩
            | (.ok (), host) =>
                ⟨.ok { tally with directories := tally.directories + 1 }, session, host⟩
          else job.unpackFile info.path destination tally session host

theorem unpackMember_headers (job : UnpackJob) (info : MemberInfo) (tally : Tally)
    (session : Session) (host : Host) :
    (job.unpackMember info tally session host).session.handle.headers =
      session.handle.headers := by
  unfold unpackMember
  split
  · rfl
  · dsimp only
    split
    · rfl
    · split
      · split <;> rfl
      · unfold unpackFile
        split
        · rfl
        · split
          · rfl
          · split
            · rfl
            · unfold fillFile
              dsimp only
              split <;> exact session.forEachChunk_headers ..

def unpackMembers (job : UnpackJob) (tally : Tally) (session : Session) (host : Host) :
    Outcome (Except UnpackError Tally) :=
  if host.cancelled then ⟨.error .cancelled, session, host⟩
  else
    let moved := session.advance host
    match _taken : moved.value with
    | .error error => ⟨.error (.archive error), moved.session, moved.host⟩
    | .ok none => ⟨.ok tally, moved.session, moved.host⟩
    | .ok (some header) =>
        let done := job.unpackMember header.info tally moved.session moved.host
        match done.value with
        | .error error => ⟨.error error, done.session, done.host⟩
        | .ok tally => job.unpackMembers tally done.session done.host
termination_by session.handle.headers.length
decreasing_by
  rw [unpackMember_headers]
  exact session.advance_headers host _taken

end UnpackJob

/-- Unpacks the archive at a path. Nothing is made on disk before the archive is open. -/
def unpackArchive (path output : Path) (options : UnpackOptions) (observer : Observer)
    (host : Host) : Except UnpackError Tally × Host :=
  match (Reader.new path options.reader).openSession host with
  | (.refused error _, host) => (.error (.archive error), host)
  | (.opened session, host) =>
      match host.makeDirectories output with
      | (.error error, host) => (.error (.io error), (session.close host).2.2)
      | (.ok (), host) =>
          let job : UnpackJob := ⟨output, options.sizeLimit, observer⟩
          let done := job.unpackMembers {} session host
          (done.value, (done.session.close done.host).2.2)

end ArchiveTraversal
