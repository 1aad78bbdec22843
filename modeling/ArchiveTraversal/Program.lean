import ArchiveTraversal.Copying
import ArchiveTraversal.Reader

/-!
Programs of public operations on one reader. At any moment the reader is at rest or lends itself to
a session; an operation that does not fit the moment changes nothing. At the end of a program the
session or the reader is dropped, which frees whatever is still held.
-/

namespace ArchiveTraversal

inductive Operation : Type 1 where
  | openSession
  | close
  | isOpen
  | path
  | options
  | debug
  | advance
  | entry
  | read
  | drain
  | copy {State : Type} (sink : Sink State) (state : State)
  | skip
  | format
  | filters
  | entriesSeen
  | drop
  | abandon

inductive Position where
  | atRest (reader : Reader)
  | inSession (session : Session)

inductive Answer where
  | misplaced
  | opened
  | failed (error : ArchiveError)
  | closed (clean : Bool)
  | isOpen (held : Bool)
  | path (path : Path)
  | options (options : ReaderOptions)
  | text (text : String)
  | member (header : Header)
  | ended
  | entry (header : Option Header)
  | chunk (bytes : Bytes)
  | drained (chunks : List Bytes) (failure : Option ArchiveError)
  | copied (result : Except CopyError Nat) (written : Bytes)
  | skipped
  | format (name : Option String)
  | filters (names : List String)
  | entriesSeen (count : Nat)
  | dropped
  | abandoned

structure Performed where
  answer : Answer
  position : Position
  host : Host

namespace Reader

def perform (reader : Reader) (host : Host) : Operation → Performed
  | .openSession =>
      match reader.openSession host with
      | (.opened session, host) => ⟨.opened, .inSession session, host⟩
      | (.refused error reader, host) => ⟨.failed error, .atRest reader, host⟩
  | .close =>
      let (clean, reader, host) := reader.close host
      ⟨.closed clean, .atRest reader, host⟩
  | .isOpen => ⟨.isOpen reader.isOpen, .atRest reader, host⟩
  | .path => ⟨.path reader.path, .atRest reader, host⟩
  | .options => ⟨.options reader.options, .atRest reader, host⟩
  | .debug => ⟨.text reader.debug, .atRest reader, host⟩
  | _ => ⟨.misplaced, .atRest reader, host⟩

end Reader

namespace Session

def stay {Value : Type} (outcome : Outcome Value) (answer : Answer) : Performed :=
  ⟨answer, .inSession outcome.session, outcome.host⟩

def perform (session : Session) (host : Host) : Operation → Performed
  | .advance =>
      let moved := session.advance host
      stay moved (match moved.value with
        | .ok (some header) => .member header
        | .ok none => .ended
        | .error error => .failed error)
  | .entry => ⟨.entry session.entry, .inSession session, host⟩
  | .read =>
      let read := session.readChunk host
      stay read (match read.value with
        | .ok bytes => .chunk bytes
        | .error error => .failed error)
  | .drain =>
      let drained := session.drain host
      stay drained (.drained drained.value.1 drained.value.2)
  | .copy sink state =>
      let copied := session.copyTo sink.recording (state, []) host
      stay copied (.copied copied.value.1 copied.value.2.2.reverse.flatten)
  | .skip =>
      let skipped := session.skipEntry host
      stay skipped (match skipped.value with
        | .ok () => .skipped
        | .error error => .failed error)
  | .format => ⟨.format session.formatName, .inSession session, host⟩
  | .filters => ⟨.filters session.filters, .inSession session, host⟩
  | .entriesSeen => ⟨.entriesSeen session.entriesSeen, .inSession session, host⟩
  | .path => ⟨.path session.path, .inSession session, host⟩
  | .debug => ⟨.text session.debug, .inSession session, host⟩
  | .close =>
      let (clean, reader, host) := session.close host
      ⟨.closed clean, .atRest reader, host⟩
  | .drop =>
      let (_, reader, host) := session.close host
      ⟨.dropped, .atRest reader, host⟩
  | .abandon => ⟨.abandoned, .atRest (.abandoned session), host⟩
  | .openSession | .isOpen | .options => ⟨.misplaced, .inSession session, host⟩

end Session

namespace Position

def perform (position : Position) (host : Host) (operation : Operation) : Performed :=
  match position with
  | .atRest reader => reader.perform host operation
  | .inSession session => session.perform host operation

def finish (position : Position) (host : Host) : Host :=
  match position with
  | .atRest reader => (reader.close host).2.2
  | .inSession session => (session.close host).2.2

end Position

def runProgram : List Operation → Position → Host → List Answer × Position × Host
  | [], position, host => ([], position, host)
  | operation :: rest, position, host =>
      let performed := position.perform host operation
      let (answers, position, host) := runProgram rest performed.position performed.host
      (performed.answer :: answers, position, host)

end ArchiveTraversal
