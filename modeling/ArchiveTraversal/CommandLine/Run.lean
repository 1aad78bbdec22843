import ArchiveTraversal.CommandLine.Arguments
import ArchiveTraversal.CommandLine.LogFilter
import ArchiveTraversal.Copying
import ArchiveTraversal.Json.Text
import ArchiveTraversal.Snapshot

/-!
The commands and what they leave behind: bytes on standard output, lines on standard error, and an
exit code. A failure is reported on the last line, after the log.
-/

namespace ArchiveTraversal

namespace Session

def seek (name : String) (session : Session) (host : Host) :
    Outcome (Except ArchiveError (Option Header)) :=
  let moved := session.advance host
  match _taken : moved.value with
  | .error error => ⟨.error error, moved.session, moved.host⟩
  | .ok none => ⟨.ok none, moved.session, moved.host⟩
  | .ok (some header) =>
      if header.filename = name then ⟨.ok (some header), moved.session, moved.host⟩
      else moved.session.seek name moved.host
termination_by session.handle.headers.length
decreasing_by exact advance_headers session host _taken

end Session

namespace CommandLine

inductive Failure where
  | archive (error : ArchiveError)
  | copy (error : CopyError)
  | unpack (error : UnpackError)
  | memberNotFound (name : String)
  deriving DecidableEq, Repr

namespace Failure

def message : Failure → String
  | .archive error => error.message
  | .copy error => error.message
  | .unpack error => error.message
  | .memberNotFound name => "member not found in archive: " ++ name

/-- The archive failure that the report names as such. -/
def archiveError? : Failure → Option ArchiveError
  | .archive error => some error
  | .unpack (.archive error) => some error
  | _ => none

def report (failure : Failure) : String :=
  match failure.archiveError? with
  | some error =>
      if error.isOpenError then "cannot open archive: " ++ error.message
      else "archive is damaged or unsupported: " ++ error.message
  | none => failure.message

end Failure

def rightAligned (width : Nat) (text : String) : String :=
  String.ofList (List.replicate (width - text.length) ' ') ++ text

def memberLine (info : MemberInfo) : String :=
  (if info.isDirectory then "d" else "-") ++ " " ++ rightAligned 12 (toString info.size) ++ " " ++
    info.path

def summaryLine (listing : Listing) : String :=
  toString listing.members.length ++ " entries, " ++ toString listing.totalSize ++ " bytes (" ++
    listing.format.getD "unknown format" ++ String.join (listing.filters.map (", " ++ ·)) ++ ")"

def plainListing (listing : Listing) : String :=
  String.join ((listing.members.map memberLine ++ [summaryLine listing]).map (· ++ "\n"))

def jsonListing (listing : Listing) : String := listing.toJson.indented ++ "\n"

/-- What a command leaves behind, its log still in the host's journal. -/
structure Completed where
  result : Except Failure Unit
  stdout : Bytes
  host : Host

def runList (archive : Path) (json : Bool) (host : Host) : Completed :=
  match Listing.ofArchive archive {} host with
  | (.error error, host) => ⟨.error (.archive error), [], host⟩
  | (.ok listing, host) =>
      ⟨.ok (), Text.Utf8.encode (if json then jsonListing listing else plainListing listing), host⟩

def printMember (name : String) (session : Session) (host : Host) : Completed :=
  let copied := session.copyTo Sink.unlimited.recording ((), []) host
  let stdout := copied.value.2.2.reverse.flatten
  match copied.value.1 with
  | .error error => ⟨.error (.copy error), stdout, (copied.session.close copied.host).2.2⟩
  | .ok count =>
      let host := copied.host.event (.memberPrinted name count)
      ⟨.ok (), stdout, (copied.session.close host).2.2⟩

def runPrint (archive : Path) (name : String) (host : Host) : Completed :=
  match (Reader.new archive).openSession host with
  | (.refused error _, host) => ⟨.error (.archive error), [], host⟩
  | (.opened session, host) =>
      let sought := session.seek name host
      match sought.value with
      | .ok (some _) => printMember name sought.session sought.host
      | .ok none =>
          ⟨.error (.memberNotFound name), [], (sought.session.close sought.host).2.2⟩
      | .error error => ⟨.error (.archive error), [], (sought.session.close sought.host).2.2⟩

/-- The command has a cancel flag to itself, which nothing raises. -/
def runUnpack (archive output : Path) (sizeLimit : Option Nat) (host : Host) : Completed :=
  let options : UnpackOptions := { sizeLimit := some (sizeLimit.getD defaultSizeLimit) }
  match unpackArchive archive output options (fun _ _ _ => {}) host.withOwnFlag with
  | (.error error, host) => ⟨.error (.unpack error), [], host⟩
  | (.ok tally, host) =>
      ⟨.ok (), [], host.event (.unpacked archive tally.files tally.directories tally.skipped
        tally.bytes tally.elapsed.seconds)⟩

def runCommand (command : Command) (host : Host) : Completed :=
  match command with
  | .list archive json => runList archive json host
  | .print archive member => runPrint archive member host
  | .unpack archive output sizeLimit => runUnpack archive output sizeLimit host

structure Exit where
  code : Nat
  stdout : Bytes
  stderr : List String

def shown? (filter : LogFilter) : Record → Option String
  | .event event => if filter.admits event then some (logLine event) else none
  | _ => none

def logOf (filter : LogFilter) (host : Host) : List String :=
  host.journal.toList.filterMap (shown? filter)

def exitOf (filter : LogFilter) (completed : Completed) : Exit :=
  let log := logOf filter completed.host
  match completed.result with
  | .ok () => ⟨0, completed.stdout, log⟩
  | .error failure => ⟨1, completed.stdout, log ++ ["Error: " ++ failure.report]⟩

def versionText : String := "arcstream 0.1.0\n"

def helpText : String :=
  "Usage: arcstream list ARCHIVE [--json]\n" ++
    "       arcstream cat ARCHIVE MEMBER\n" ++
    "       arcstream unpack ARCHIVE --out OUT [--size-limit BYTES]\n"

def UsageError.message : UsageError → String
  | .missingCommand => "a command is required"
  | .unknownCommand name => "unrecognized command " ++ Text.Quoted.bytes name
  | .unknownArgument argument => "unexpected argument " ++ Text.Quoted.bytes argument
  | .missingArgument name => "missing argument " ++ name
  | .missingValue option => "a value is required for " ++ option
  | .unwantedValue option => "no value is allowed for " ++ option
  | .repeated option => option ++ " cannot be used more than once"
  | .invalidValue option value =>
      "invalid value " ++ Text.Quoted.bytes value ++ " for " ++ option

/-- The whole program: arguments and the log setting in, an exit and the changed host out. -/
def run (arguments : List Bytes) (logSetting : Option String) (host : Host) : Exit × Host :=
  match readArguments arguments with
  | .error error => (⟨2, [], ["error: " ++ error.message]⟩, host)
  | .ok .version => (⟨0, Text.Utf8.encode versionText, []⟩, host)
  | .ok .help => (⟨0, Text.Utf8.encode helpText, []⟩, host)
  | .ok (.run command) =>
      let completed := runCommand command host
      (exitOf (.ofSetting logSetting) completed, completed.host)

end CommandLine

end ArchiveTraversal
