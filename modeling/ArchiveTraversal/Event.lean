import ArchiveTraversal.Failure
import ArchiveTraversal.Status
import ArchiveTraversal.Text.Quoted

/-!
The log of a reader and of an unpack. An event is recorded as what happened; level, wording and
fields follow from that. Fields keep the order in which a log line shows them.
-/

namespace ArchiveTraversal

inductive Level where
  | error
  | warn
  | info
  | debug
  | trace
  deriving DecidableEq, Repr

namespace Level

def rank : Level → Nat
  | .error => 1
  | .warn => 2
  | .info => 3
  | .debug => 4
  | .trace => 5

def name : Level → String
  | .error => "ERROR"
  | .warn => "WARN"
  | .info => "INFO"
  | .debug => "DEBUG"
  | .trace => "TRACE"

end Level

inductive Event where
  | staleSession (path : Path)
  | opened (path : Path) (blockSize : Nat) (filters : List String)
  | closed (path : Path) (entries : Nat)
  | closeFailed (path : Path)
  | headerRead (index : Nat) (name : String) (size : Int)
  | ended (path : Path) (entries : Nat)
  | headerFailed (path : Path) (status : Status) (reason : Reason)
  | chunkRead (bytes : Nat)
  | dataFailed (path : Path) (reason : Reason)
  | memberSkipped (name : String) (error : SecurityError)
  | memberBlocked (name : String)
  | fileReplaced (path : Path)
  | memberWritten (name : String)
  | memberPrinted (name : String) (bytes : Nat)
  | unpacked (archive : Path) (files directories skipped bytes seconds : Nat)
  deriving DecidableEq, Repr

inductive FieldValue where
  | number (value : Int)
  | text (value : String)
  | quoted (value : String)
  deriving DecidableEq, Repr

def FieldValue.render : FieldValue → String
  | .number value => toString value
  | .text value => value
  | .quoted value => Text.Quoted.text value

namespace Event

def level : Event → Level
  | .staleSession .. | .closeFailed .. | .memberSkipped .. | .memberBlocked .. => .warn
  | .unpacked .. => .info
  | .headerRead .. | .chunkRead .. => .trace
  | _ => .debug

def message : Event → String
  | .staleSession .. => "Closing stale session before reopening"
  | .opened .. => "Opened archive"
  | .closed .. => "Closed archive"
  | .closeFailed .. => "Decoder reported a failure while closing"
  | .headerRead .. => "Read header"
  | .ended .. => "End of archive"
  | .headerFailed .. => "Header read failed"
  | .chunkRead .. => "Read chunk"
  | .dataFailed .. => "Data read failed"
  | .memberSkipped .. => "Skipping member"
  | .memberBlocked .. => "Skipping member, a directory exists at its path"
  | .fileReplaced .. => "Replacing file with directory"
  | .memberWritten .. => "Wrote member"
  | .memberPrinted .. => "Copied member to stdout"
  | .unpacked archive .. => "Unpacked " ++ archive.display

def fields : Event → List (String × FieldValue)
  | .staleSession path | .closeFailed path | .fileReplaced path => [("path", .text path.display)]
  | .opened path blockSize filters =>
      [("path", .text path.display), ("block_size", .number blockSize),
        ("filters", .text (Text.Quoted.texts filters))]
  | .closed path entries | .ended path entries =>
      [("path", .text path.display), ("entries", .number entries)]
  | .headerRead index name size =>
      [("index", .number index), ("entry", .text name), ("size", .number size)]
  | .headerFailed path status reason =>
      [("path", .text path.display), ("status", .text status.name),
        ("reason", .text reason.text)]
  | .chunkRead bytes => [("bytes", .number bytes)]
  | .dataFailed path reason => [("path", .text path.display), ("reason", .text reason.text)]
  | .memberSkipped name error => [("entry", .text name), ("error", .text error.message)]
  | .memberBlocked name | .memberWritten name => [("entry", .text name)]
  | .memberPrinted name bytes => [("member", .quoted name), ("bytes", .number bytes)]
  | .unpacked _ files directories skipped bytes seconds =>
      [("files", .number files), ("directories", .number directories),
        ("skipped", .number skipped), ("bytes", .number bytes), ("seconds", .number seconds)]

end Event

end ArchiveTraversal
