import ArchiveTraversal.Host
import ArchiveTraversal.Options
import ArchiveTraversal.Words

/-!
An open archive. The cursor says where a session stands among the members: before the first, on
one, past the last, or stopped for good by a decoder failure. From the last two no call reaches
the decoder's header or data functions any more. Closing gives the reader back, so that a session
is used at most once after it.
-/

namespace ArchiveTraversal

inductive Cursor where
  | start
  | onMember
  | exhausted
  | failed
  deriving DecidableEq, Repr

def Cursor.name : Cursor → String
  | .start => "Start"
  | .onMember => "OnEntry"
  | .exhausted => "Exhausted"
  | .failed => "Failed"

structure Setup where
  path : Path
  options : ReaderOptions
  deriving DecidableEq, Repr

/-- An archive between opening and closing. The handle is here as long as the session is. -/
structure Session where
  setup : Setup
  /-- What earlier reads left in the chunk buffer. -/
  buffer : Bytes
  handle : Decoder.Handle
  current : Option Decoder.LentHeader := none
  cursor : Cursor := .start
  entriesSeen : Nat := 0

/-- What an operation on a session gives, with the session and the host as it leaves them. -/
structure Outcome (Value : Type) where
  value : Value
  session : Session
  host : Host

namespace Session

def path (session : Session) : Path := session.setup.path

def readError (session : Session) (stage : ReadStage) (reason : Reason) : ArchiveError :=
  .reading session.path stage reason

def call (session : Session) (host : Host) (call : Decoder.Call) : Host :=
  host.call session.handle.number call

/-- Moves to the next member. Data left of the one before is given up. -/
def advance (session : Session) (host : Host) : Outcome (Except ArchiveError (Option Header)) :=
  match session.cursor with
  | .exhausted => ⟨.ok none, session, host⟩
  | .failed => ⟨.error (session.readError .header .aborted), session, host⟩
  | .start | .onMember =>
      let (reply, handle) := session.handle.nextHeader
      let host := (session.call host .nextHeader).raiseIf reply.cancels
      match Status.ofCode reply.code, reply.lent with
      | .ok, some lent =>
          let seen := session.entriesSeen + 1
          ⟨.ok (some lent.header),
            { session with
              handle := handle, current := some lent, cursor := .onMember, entriesSeen := seen },
            host.event (.headerRead seen lent.header.filename lent.header.size)⟩
      | .endOfArchive, _ =>
          ⟨.ok none, { session with handle := handle, current := none, cursor := .exhausted },
            host.event (.ended session.path session.entriesSeen)⟩
      | status, _ =>
          let reason := handle.reason reply.code
          ⟨.error (session.readError .header reason),
            { session with handle := handle, current := none, cursor := .failed },
            host.event (.headerFailed session.path status reason)⟩

def entry (session : Session) : Option Header :=
  match session.cursor with
  | .onMember => session.current.map (·.header)
  | _ => none

/-- Codes below the range of a return code count as fatal. -/
def dataCode (count : Int) : Int := if count < -signed32Bound then Status.fatalCode else count

/-- The next chunk of the current member; an empty one means that there is no more. A directory has
no data to ask for. -/
def readChunk (session : Session) (host : Host) : Outcome (Except ArchiveError Bytes) :=
  match session.cursor with
  | .exhausted => ⟨.ok [], session, host⟩
  | .start => ⟨.error (session.readError .data .nothingSelected), session, host⟩
  | .failed => ⟨.error (session.readError .data .aborted), session, host⟩
  | .onMember =>
      if session.current.any (·.header.isDirectory) then ⟨.ok [], session, host⟩
      else
        let capacity := session.setup.options.chunkSize
        let (reply, handle) := session.handle.readData capacity
        let host := (session.call host (.readData capacity)).raiseIf reply.cancels
        let buffer := reply.filled ++ session.buffer.drop reply.filled.length
        if reply.count < 0 then
          let reason := handle.reason (dataCode reply.count)
          ⟨.error (session.readError .data reason),
            { session with handle := handle, buffer := buffer, cursor := .failed },
            host.event (.dataFailed session.path reason)⟩
        else
          let length := min reply.count.toNat capacity
          ⟨.ok (buffer.take length), { session with handle := handle, buffer := buffer },
            host.event (.chunkRead length)⟩

def skipEntry (session : Session) (host : Host) : Outcome (Except ArchiveError Unit) :=
  match session.cursor with
  | .start | .exhausted => ⟨.ok (), session, host⟩
  | .failed => ⟨.error (session.readError .data .aborted), session, host⟩
  | .onMember =>
      let (code, handle) := session.handle.skipData
      let host := session.call host .skipData
      if Status.ofCode code = .ok then ⟨.ok (), { session with handle := handle }, host⟩
      else
        ⟨.error (session.readError .data (handle.reason code)),
          { session with handle := handle, cursor := .failed }, host⟩

def formatName (session : Session) : Option String := session.handle.formatName

def filters (session : Session) : List String := session.handle.filterNames

def debug (session : Session) : String :=
  "Session \x7b path: " ++ Text.Quoted.bytes session.path ++ ", cursor: " ++ session.cursor.name ++
    ", entries_seen: " ++ toString session.entriesSeen ++ " \x7d"

end Session

end ArchiveTraversal
