import ArchiveTraversal.Path
import ArchiveTraversal.SystemError

/-!
Why an operation failed, as causes. The wording of each cause is given once, by `text` for a reason
and by `message` for a failure.
-/

namespace ArchiveTraversal

inductive Reason where
  | io (error : IoError)
  | emptyArchive
  | noDecoder
  | stated (text : String)
  | status (code : Int)
  | nothingSelected
  | aborted
  deriving DecidableEq, Repr

def Reason.text : Reason → String
  | .io error => error.message
  | .emptyArchive => "Empty file, unable to detect archive format"
  | .noDecoder => "Unable to allocate decoder"
  | .stated text => text
  | .status code => "Decoder returned status " ++ toString code
  | .nothingSelected => "No entry selected, advance before reading"
  | .aborted => "Traversal aborted by an earlier failure"

inductive ReadStage where
  | header
  | data
  deriving DecidableEq, Repr

def ReadStage.name : ReadStage → String
  | .header => "header"
  | .data => "data"

inductive ArchiveError where
  | opening (path : Path) (reason : Reason)
  | reading (path : Path) (stage : ReadStage) (reason : Reason)
  deriving DecidableEq, Repr

namespace ArchiveError

def path : ArchiveError → Path
  | .opening path _ => path
  | .reading path _ _ => path

def reason : ArchiveError → Reason
  | .opening _ reason => reason
  | .reading _ _ reason => reason

def isOpenError : ArchiveError → Bool
  | .opening .. => true
  | .reading .. => false

def isReadError : ArchiveError → Bool
  | .opening .. => false
  | .reading .. => true

def message : ArchiveError → String
  | .opening path reason =>
      "Unable to open archive " ++ path.display ++ ": " ++ reason.text
  | .reading path stage reason =>
      "Unable to read archive " ++ path.display ++ " (" ++ stage.name ++ "): " ++ reason.text

end ArchiveError

inductive SecurityError where
  | pathTraversal (account : String)
  | absolutePath (account : String)
  | unsafeEntryType (account : String)
  deriving DecidableEq, Repr

def SecurityError.message : SecurityError → String
  | .pathTraversal account => "Path traversal attempt: " ++ account
  | .absolutePath account => "Absolute path not allowed: " ++ account
  | .unsafeEntryType account => "Unsafe entry type: " ++ account

inductive CopyError where
  | archive (error : ArchiveError)
  | io (error : IoError)
  deriving DecidableEq, Repr

def CopyError.message : CopyError → String
  | .archive error => error.message
  | .io error => "IO error: " ++ error.message

inductive UnpackError where
  | archive (error : ArchiveError)
  | security (error : SecurityError)
  | sizeLimitExceeded (current limit : Nat)
  | io (error : IoError)
  | cancelled
  deriving DecidableEq, Repr

def UnpackError.message : UnpackError → String
  | .archive error => error.message
  | .security error => "Security violation: " ++ error.message
  | .sizeLimitExceeded current limit =>
      "Size limit exceeded: " ++ toString current ++ " bytes > " ++ toString limit ++ " bytes"
  | .io error => "IO error: " ++ error.message
  | .cancelled => "Cancelled by user"

def CopyError.toUnpack : CopyError → UnpackError
  | .archive error => .archive error
  | .io error => .io error

end ArchiveTraversal
