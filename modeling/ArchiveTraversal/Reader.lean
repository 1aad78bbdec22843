import ArchiveTraversal.Session

/-!
A reader of one archive. It is made without touching anything; opening it allocates a decoder and
begins a session. A session that is abandoned instead of closed leaves its handle with the reader,
which frees it when it is next opened, closed or dropped.
-/

namespace ArchiveTraversal

/-- At rest without a handle, or holding that of an abandoned session. -/
inductive Reader where
  | closed (setup : Setup) (buffer : Bytes)
  | abandoned (session : Session)

inductive Opening where
  | opened (session : Session)
  | refused (error : ArchiveError) (reader : Reader)

/-- Frees the decoder. False only if it reports a failure while releasing. -/
def Session.close (session : Session) (host : Host) : Bool × Reader × Host :=
  let clean := session.handle.script.freeCode = 0
  let host := session.call host .free
  (clean, .closed session.setup session.buffer,
    host.event (if clean then .closed session.path session.entriesSeen
      else .closeFailed session.path))

namespace Reader

def new (path : Path) (options : ReaderOptions := {}) : Reader :=
  .closed ⟨path, options.normalized⟩ []

def setup : Reader → Setup
  | .closed setup _ => setup
  | .abandoned session => session.setup

def path (reader : Reader) : Path := reader.setup.path

def options (reader : Reader) : ReaderOptions := reader.setup.options

def isOpen : Reader → Bool
  | .closed .. => false
  | .abandoned _ => true

def close (reader : Reader) (host : Host) : Bool × Reader × Host :=
  match reader with
  | .closed setup buffer => (true, .closed setup buffer, host)
  | .abandoned session => session.close host

/-- What the file system says against opening a path. An empty regular file has no format. -/
def obstacle (tree : FileTree) (path : Path) : Option Reason :=
  match tree.metadata path with
  | .error error => some (.io error)
  | .ok (.file []) => some .emptyArchive
  | .ok _ => none

/-- One call of setting up a decoder: the handle after it, or the reason that it was refused, with
the handle freed. -/
def attempt (handle : Decoder.Handle) (host : Host) (call : Decoder.Call) (reply : Decoder.Reply)
    (accepted : Bool) : Except Reason Decoder.Handle × Host :=
  let handle := handle.answer reply
  let host := host.call handle.number call
  if accepted then (.ok handle, host)
  else (.error (handle.reason reply.code), host.call handle.number .free)

/-- The calls that open an archive. Enabling filters and formats may warn; opening the file may
not. -/
def prepare (setup : Setup) (handle : Decoder.Handle) (host : Host) :
    Except Reason Decoder.Handle × Host :=
  let script := handle.script
  match attempt handle host .supportFilters script.supportFilters
      (Status.warnCode ≤ script.supportFilters.code) with
  | (.error reason, host) => (.error reason, host)
  | (.ok handle, host) =>
      match attempt handle host .supportFormats script.supportFormats
          (Status.warnCode ≤ script.supportFormats.code) with
      | (.error reason, host) => (.error reason, host)
      | (.ok handle, host) =>
          attempt handle host (.openFile setup.options.blockSize setup.path) script.openFile
            (Status.ofCode script.openFile.code = .ok)

def acquire (setup : Setup) (host : Host) : Except Reason Decoder.Handle × Host :=
  match obstacle host.tree setup.path with
  | some reason => (.error reason, host)
  | none =>
      match host.allocate with
      | (none, host) => (.error .noDecoder, host)
      | (some handle, host) => prepare setup handle host

def releaseStale (reader : Reader) (host : Host) : Setup × Bytes × Host :=
  match reader with
  | .closed setup buffer => (setup, buffer, host)
  | .abandoned session =>
      let (_, _, host) := session.close (host.event (.staleSession session.path))
      (session.setup, session.buffer, host)

/-- Opens the archive or leaves no handle behind. -/
def openSession (reader : Reader) (host : Host) : Opening × Host :=
  let (setup, buffer, host) := reader.releaseStale host
  match acquire setup host with
  | (.error reason, host) => (.refused (.opening setup.path reason) (.closed setup buffer), host)
  | (.ok handle, host) =>
      (.opened { setup := setup, buffer := buffer, handle := handle },
        host.event (.opened setup.path setup.options.blockSize handle.filterNames))

def debug (reader : Reader) : String :=
  "ArchiveReader \x7b path: " ++ Text.Quoted.bytes reader.path ++ ", options: " ++
    reader.options.debug ++ ", open: " ++ toString reader.isOpen ++ " \x7d"

end Reader

end ArchiveTraversal
