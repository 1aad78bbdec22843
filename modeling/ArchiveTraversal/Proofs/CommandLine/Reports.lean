import ArchiveTraversal.Main
import ArchiveTraversal.Proofs.Unpack.Faults

/-!
What a command reports. Its exit code tells whether it did what was asked. If not, the last line on
standard error tells an archive that does not open from one that does, and is damaged; only a member
whose data gives out while it is printed is reported without a word on that.
-/

namespace ArchiveTraversal

open Decoder

namespace Session

inductive Sought (session : Session) (host : Host) :
    Outcome (Except ArchiveError (Option Header)) → Prop
  | found {header : Header} {last : Session} {after : Host} (onMember : last.cursor = .onMember)
      (setup : last.setup = session.setup)
      (sound : session.handle.Answers host last.handle after none) :
      Sought session host ⟨.ok (some header), last, after⟩
  | missing {last : Session} {after : Host}
      (sound : session.handle.Answers host last.handle after none) :
      Sought session host ⟨.ok none, last, after⟩
  | broken {reason : Reason} {last : Session} {after : Host}
      (told : session.handle.Answers host last.handle after (some .header)) :
      Sought session host ⟨.error (.reading session.setup.path .header reason), last, after⟩

theorem Sought.later {session last : Session} {host between : Host}
    {outcome : Outcome (Except ArchiveError (Option Header))}
    (setup : last.setup = session.setup)
    (sound : session.handle.Answers host last.handle between none)
    (rest : last.Sought between outcome) : session.Sought host outcome := by
  cases rest with
  | found onMember same further =>
      exact .found onMember (same.trans setup) (sound.sound_first further)
  | missing further => exact .missing (sound.sound_first further)
  | broken told =>
      rw [setup]
      exact .broken (sound.sound_first told)

theorem Going.seek_sought {session : Session} (going : session.Going) (name : String)
    (host : Host) : session.Sought host (session.seek name host) := by
  fun_induction Session.seek name session host with
  | case1 session host moved error failed =>
      have value : (session.advance host).value = .error error := failed
      obtain ⟨reason, rfl⟩ := advance_fails value
      exact .broken (going.advance_answers value)
  | case2 session host moved ended =>
      exact .missing (going.advance_answers ended)
  | case3 session host moved header taken named =>
      obtain ⟨_, movedTo⟩ := movedTo_of_advance taken
      exact .found movedTo.cursor (session.advance_setup host) (going.advance_answers taken)
  | case4 session host moved header taken other ih =>
      obtain ⟨_, movedTo⟩ := movedTo_of_advance taken
      have told := going.advance_answers taken
      exact (ih (.inr movedTo.cursor)).later (session.advance_setup host) told

end Session

namespace CommandLine

def Starts (start line : String) : Prop := start.toList <+: line.toList

def unopenedStart : String := "Error: cannot open archive: "

def damagedStart : String := "Error: archive is damaged or unsupported: "

def Unprefixed (line : String) : Prop := ¬ Starts unopenedStart line ∧ ¬ Starts damagedStart line

/-- The text begins with a letter with which no prefix goes on. -/
def Unlike (text : String) : Prop :=
  ∃ letter, text.toList.head? = some letter ∧ letter ≠ 'c' ∧ letter ≠ 'a'

theorem Unlike.append {text : String} (unlike : Unlike text) (more : String) :
    Unlike (text ++ more) := by
  obtain ⟨letter, head, notC, notA⟩ := unlike
  refine ⟨letter, ?_, notC, notA⟩
  rw [String.toList_append, List.head?_append, head]
  rfl

theorem unlike_archive (error : ArchiveError) : Unlike error.message := by
  cases error with
  | opening path reason =>
      have start : Unlike "Unable to open archive " := ⟨'U', by decide, by decide, by decide⟩
      exact ((start.append _).append _).append _
  | reading path stage reason =>
      have start : Unlike "Unable to read archive " := ⟨'U', by decide, by decide, by decide⟩
      exact ((((start.append _).append _).append _).append _).append _

theorem unlike_io (error : IoError) : Unlike ("IO error: " ++ error.message) := by
  have start : Unlike "IO error: " := ⟨'I', by decide, by decide, by decide⟩
  exact start.append _

theorem unlike_unpack (error : UnpackError) : Unlike error.message := by
  cases error with
  | archive error => exact unlike_archive error
  | security error =>
      have start : Unlike "Security violation: " := ⟨'S', by decide, by decide, by decide⟩
      exact start.append _
  | sizeLimitExceeded current limit =>
      have start : Unlike "Size limit exceeded: " := ⟨'S', by decide, by decide, by decide⟩
      exact (((start.append _).append _).append _).append _
  | io error => exact unlike_io error
  | cancelled => exact ⟨'C', by decide, by decide, by decide⟩

namespace Failure

def line (failure : Failure) : String := "Error: " ++ failure.report

theorem unlike_message (failure : Failure) : Unlike failure.message := by
  cases failure with
  | archive error => exact unlike_archive error
  | copy error =>
      cases error with
      | archive error => exact unlike_archive error
      | io error => exact unlike_io error
  | unpack error => exact unlike_unpack error
  | memberNotFound name =>
      have start : Unlike "member not found in archive: " := ⟨'m', by decide, by decide, by decide⟩
      exact start.append _

theorem line_of_unopened {failure : Failure} {error : ArchiveError}
    (cause : failure.archiveError? = some error) (opening : error.isOpenError = true) :
    Starts unopenedStart failure.line := by
  have split : unopenedStart = "Error: " ++ "cannot open archive: " := by decide
  simp only [line, report, cause, opening, ↓reduceIte]
  rw [Starts, ← String.append_assoc, ← split, String.toList_append]
  exact List.prefix_append _ _

theorem line_of_damaged {failure : Failure} {error : ArchiveError}
    (cause : failure.archiveError? = some error) (reading : error.isOpenError = false) :
    Starts damagedStart failure.line := by
  have split : damagedStart = "Error: " ++ "archive is damaged or unsupported: " := by decide
  simp only [line, report, cause, reading, Bool.false_eq_true, ↓reduceIte]
  rw [Starts, ← String.append_assoc, ← split, String.toList_append]
  exact List.prefix_append _ _

theorem line_of_other {failure : Failure} (other : failure.archiveError? = none) :
    failure.line = "Error: " ++ failure.message ∧ Unprefixed failure.line := by
  have same : failure.line = "Error: " ++ failure.message := by
    simp only [line, report, other]
  obtain ⟨letter, head, notC, notA⟩ := failure.unlike_message
  obtain ⟨rest, message⟩ := List.head?_eq_some_iff.mp head
  have apart : ∀ (start : String) (first : Char) (more : List Char),
      start.toList = "Error: ".toList ++ first :: more → first ≠ letter →
        ¬ Starts start failure.line := by
    intro start first more split different starts
    rw [Starts, same, split, String.toList_append, message, List.prefix_append_right_inj,
      List.cons_prefix_cons] at starts
    exact different starts.1
  refine ⟨same, ?_, ?_⟩
  · exact apart unopenedStart 'c' "annot open archive: ".toList (by decide) notC.symm
  · exact apart damagedStart 'a' "rchive is damaged or unsupported: ".toList (by decide) notA.symm

end Failure

/-- The host that a command runs on: unpacking has a cancel flag to itself. -/
def Command.ground (command : Command) (host : Host) : Host :=
  match command with
  | .unpack .. => host.withOwnFlag
  | _ => host

def Command.Opens (command : Command) (host : Host) (script : Script) : Prop :=
  Reader.Opens (archiveOf command) (command.ground host) script

theorem Command.never_opens {command : Command} {host after : Host} {error : ArchiveError}
    {reader : Reader} (refused : (Reader.new (archiveOf command)).openSession
      (command.ground host) = (.refused error reader, after)) (script : Script) :
    ¬ command.Opens host script := by
  intro opens
  obtain ⟨_, _, opened, _⟩ := opens.openSession {}
  cases refused.symm.trans opened

theorem Command.opens_unique {command : Command} {host : Host} {script other : Script}
    (opens : command.Opens host script) (also : command.Opens host other) : script = other := by
  obtain ⟨_, next⟩ := opens.next
  obtain ⟨_, otherNext⟩ := also.next
  cases next.symm.trans otherNext
  rfl

def Command.isPrint : Command → Bool
  | .print .. => true
  | _ => false

def limitedTo (sizeLimit : Option Nat) : UnpackOptions :=
  { sizeLimit := some (sizeLimit.getD defaultSizeLimit) }

def quiet : Observer := fun _ _ _ => {}

/-- The command gets done what it is for: the archive is listed, the member is found and copied, or
the members are unpacked. -/
def Command.Succeeds (command : Command) (host : Host) : Prop :=
  match command with
  | .list archive _ => ∃ listing, (Listing.ofArchive archive {} host).1 = .ok listing
  | .print archive name =>
      ∃ session between header count,
        (Reader.new archive).openSession host = (.opened session, between) ∧
        (session.seek name between).value = .ok (some header) ∧
        ((session.seek name between).session.copyTo Sink.unlimited.recording ((), [])
          (session.seek name between).host).value.1 = .ok count
  | .unpack archive output sizeLimit =>
      ∃ tally, (unpackArchive archive output (limitedTo sizeLimit) quiet host.withOwnFlag).1 =
        .ok tally

inductive Fate (command : Command) (host : Host) : Completed → Prop
  | unopened {failure : Failure} {error : ArchiveError} {stdout : Bytes} {after : Host}
      (refused : ∀ script, ¬ command.Opens host script)
      (cause : failure.archiveError? = some error) (opening : error.isOpenError = true) :
      Fate command host ⟨.error failure, stdout, after⟩
  | fine {script : Script} {stdout : Bytes} {after : Host} (opens : command.Opens host script)
      (sound : host.Faults script after none) : Fate command host ⟨.ok (), stdout, after⟩
  | damaged {script : Script} {failure : Failure} {error : ArchiveError} {stage : ReadStage}
      {stdout : Bytes} {after : Host} (opens : command.Opens host script)
      (told : host.Faults script after (some stage)) (cause : failure.archiveError? = some error)
      (reading : error.stage? = some stage) (named : stage = .header ∨ command.isPrint = false) :
      Fate command host ⟨.error failure, stdout, after⟩
  | unnamed {script : Script} {reason : Reason} {stdout : Bytes} {after : Host}
      (opens : command.Opens host script) (told : host.Faults script after (some .data))
      (print : command.isPrint = true) : Fate command host
        ⟨.error (.copy (.archive (.reading (archiveOf command) .data reason))), stdout, after⟩
  | other {script : Script} {failure : Failure} {stdout : Bytes} {after : Host}
      (opens : command.Opens host script) (sound : host.Faults script after none)
      (cause : failure.archiveError? = none) : Fate command host ⟨.error failure, stdout, after⟩

theorem runList_fate (archive : Path) (json : Bool) (host : Host) :
    Fate (.list archive json) host (runList archive json host) := by
  unfold runList Listing.ofArchive
  cases opened : (Reader.new archive).openSession host with
  | mk opening between =>
      cases opening with
      | refused error reader =>
          obtain ⟨reason, unopened⟩ := Reader.openSession_refused opened
          rw [unopened]
          exact .unopened (Command.never_opens opened) rfl rfl
      | opened session =>
          obtain ⟨_, _, _, _, _, start⟩ := Reader.openSession_opened opened
          obtain ⟨script, opens, faults⟩ := Reader.faults_of_opened opened
          have answers := Session.Going.collectMembers_answers (.inl start) between
          have closed := answers.sound_last (Session.close_answers ..)
          dsimp only
          cases value : (session.collectMembers between).value with
          | error error =>
              obtain ⟨reason, reading⟩ := Session.collectMembers_fails value
              rw [value, reading] at closed
              rw [reading]
              exact .damaged opens (faults closed) rfl rfl (.inr rfl)
          | ok members =>
              rw [value] at closed
              exact .fine opens (faults closed)

theorem printMember_fate {archive : Path} {host between : Host} {session : Session}
    {script : Script} (name : String) (opens : (Command.print archive name).Opens host script)
    (faults : ∀ {last : Handle} {after : Host} {stage? : Option ReadStage},
      session.handle.Answers between last after stage? → host.Faults script after stage?)
    (onMember : session.cursor = .onMember) (path : session.setup.path = archive) :
    Fate (.print archive name) host (printMember name session between) := by
  unfold printMember Session.copyTo
  dsimp only
  cases ends : (session.forEachChunk (Session.copier Sink.unlimited.recording)
      (0, ((), [])) between).value.1 with
  | complete =>
      have walked := Session.forEachChunk_answers onMember ends
      have printed := walked.sound_last (.of_calls (Host.event_quiet _ (.memberPrinted name
        (session.forEachChunk (Session.copier Sink.unlimited.recording)
          (0, ((), [])) between).value.2.1)).calls)
      exact .fine opens (faults (printed.sound_last (Session.close_answers ..)))
  | unreadable error =>
      obtain ⟨reason, reading⟩ := Session.forEachChunk_fails ends
      rw [reading] at ends
      have walked := Session.forEachChunk_answers onMember ends
      rw [reading, path]
      exact .unnamed opens (faults (walked.sound_last (Session.close_answers ..))) rfl
  | stopped cause =>
      have walked := Session.forEachChunk_answers onMember ends
      exact .other opens (faults (walked.sound_last (Session.close_answers ..))) rfl

theorem runPrint_fate (archive : Path) (name : String) (host : Host) :
    Fate (.print archive name) host (runPrint archive name host) := by
  unfold runPrint
  cases opened : (Reader.new archive).openSession host with
  | mk opening between =>
      cases opening with
      | refused error reader =>
          obtain ⟨reason, unopened⟩ := Reader.openSession_refused opened
          rw [unopened]
          exact .unopened (Command.never_opens opened) rfl rfl
      | opened session =>
          obtain ⟨_, _, _, _, setup, start⟩ := Reader.openSession_opened opened
          obtain ⟨script, opens, faults⟩ := Reader.faults_of_opened opened
          have path : session.setup.path = archive := by rw [setup]
          have sought := Session.Going.seek_sought (.inl start) name between
          dsimp only
          generalize session.seek name between = outcome at *
          cases sought with
          | found onMember same sound =>
              exact printMember_fate name opens (fun answers => faults (sound.sound_first answers))
                onMember ((congrArg Setup.path same).trans path)
          | missing sound =>
              exact .other opens (faults (sound.sound_last (Session.close_answers ..))) rfl
          | broken told =>
              have closed := faults (told.sound_last (Session.close_answers ..))
              exact .damaged opens closed rfl rfl (.inl rfl)

def unpacked (archive : Path) : Except UnpackError Tally × Host → Completed
  | (.error error, host) => ⟨.error (.unpack error), [], host⟩
  | (.ok tally, host) =>
      ⟨.ok (), [], host.event (.unpacked archive tally.files tally.directories tally.skipped
        tally.bytes tally.elapsed.seconds)⟩

theorem runUnpack_eq (archive output : Path) (sizeLimit : Option Nat) (host : Host) :
    runUnpack archive output sizeLimit host = unpacked archive
      (unpackArchive archive output (limitedTo sizeLimit) quiet host.withOwnFlag) := by
  unfold runUnpack limitedTo quiet
  dsimp only
  split
  · rename_i failed
    rw [failed]
    rfl
  · rename_i done
    rw [done]
    rfl

theorem runUnpack_fate (archive output : Path) (sizeLimit : Option Nat) (host : Host) :
    Fate (.unpack archive output sizeLimit) host (runUnpack archive output sizeLimit host) := by
  have unpacks :=
    unpackArchive_unpacks archive output (limitedTo sizeLimit) quiet host.withOwnFlag
  rw [runUnpack_eq]
  generalize unpackVisits archive output (limitedTo sizeLimit) _ _ = visits at *
  generalize unpackArchive archive output (limitedTo sizeLimit) _ _ = result at *
  cases unpacks with
  | refused refused =>
      obtain ⟨reason, unopened⟩ := Reader.openSession_refused refused
      rw [unopened]
      exact .unopened (Command.never_opens refused) rfl rfl
  | @obstructed session between _ made opened =>
      obtain ⟨script, opens, faults⟩ := Reader.faults_of_opened opened
      have closed := faults (session.close_answers { between with tree := made })
      exact .other opens closed rfl
  | @ran session between made _ final opened making goes =>
      obtain ⟨_, _, _, _, _, start⟩ := Reader.openSession_opened opened
      obtain ⟨script, opens, faults⟩ := Reader.faults_of_opened opened
      have answers : session.handle.Answers between final.session.handle final.host _ :=
        goes.answers (.inl start)
      have closed := answers.sound_last (Session.close_answers ..)
      cases value : final.value with
      | ok tally =>
          rw [value] at closed
          exact .fine opens (faults (closed.sound_last (.of_calls (Host.event_quiet ..).calls)))
      | error error =>
          rw [value] at closed
          cases error with
          | archive error =>
              obtain ⟨stage, reason, reading⟩ := goes.fails value
              rw [reading] at closed ⊢
              exact .damaged opens (faults closed) rfl rfl (.inr rfl)
          | _ => exact .other opens (faults closed) rfl

theorem runCommand_fate (command : Command) (host : Host) :
    Fate command host (runCommand command host) := by
  cases command with
  | list archive json => exact runList_fate archive json host
  | print archive name => exact runPrint_fate archive name host
  | unpack archive output sizeLimit => exact runUnpack_fate archive output sizeLimit host

theorem printMember_ok_iff (name : String) (session : Session) (host : Host) :
    (printMember name session host).result = .ok () ↔
      ∃ count, (session.copyTo Sink.unlimited.recording ((), []) host).value.1 = .ok count := by
  unfold printMember
  cases copied : (session.copyTo Sink.unlimited.recording ((), []) host).value.1 with
  | error error => simp [copied]
  | ok count => simp [copied]

theorem runPrint_ok_iff (archive : Path) (name : String) (host : Host) :
    (runPrint archive name host).result = .ok () ↔
      (Command.print archive name).Succeeds host := by
  unfold runPrint Command.Succeeds
  cases opened : (Reader.new archive).openSession host with
  | mk opening between =>
      cases opening with
      | refused error reader => simp [opened]
      | opened session =>
          dsimp only
          cases value : (session.seek name between).value with
          | error error => simp [opened, value]
          | ok found =>
              cases found with
              | none => simp [opened, value]
              | some header => simp [opened, value, printMember_ok_iff]

theorem runCommand_ok_iff (command : Command) (host : Host) :
    (runCommand command host).result = .ok () ↔ command.Succeeds host := by
  cases command with
  | list archive json =>
      simp only [runCommand, runList, Command.Succeeds]
      split
      · rename_i failed
        simp [failed]
      · rename_i listed
        simp [listed]
  | print archive name => exact runPrint_ok_iff archive name host
  | unpack archive output sizeLimit =>
      simp only [runCommand, runUnpack_eq, Command.Succeeds]
      generalize unpackArchive archive output _ _ _ = result
      obtain ⟨value, after⟩ := result
      cases value with
      | error error => simp [unpacked]
      | ok tally => simp [unpacked]

/-- The command has failed, and this holds of the last line on standard error. -/
def Exit.Reports (exit : Exit) (holds : String → Prop) : Prop :=
  exit.code = 1 ∧ ∃ line, exit.stderr.getLast? = some line ∧ holds line

theorem exitOf_code (filter : LogFilter) (completed : Completed) :
    ((exitOf filter completed).code = 0 ↔ completed.result = .ok ()) ∧
      ((exitOf filter completed).code = 0 ∨ (exitOf filter completed).code = 1) := by
  unfold exitOf
  cases completed.result <;> simp

theorem exitOf_reports (filter : LogFilter) {completed : Completed} {failure : Failure}
    {holds : String → Prop} (failed : completed.result = .error failure)
    (line : holds failure.line) : (exitOf filter completed).Reports holds := by
  unfold exitOf
  rw [failed]
  exact ⟨rfl, failure.line, List.getLast?_concat, line⟩

/-- An exit fits what its command has seen of the decoder. If nothing failed there, the archive is
not blamed; if something did, it is named as damaged, unless it is the data of a member that is
printed. -/
structure Exit.Fits (exit : Exit) (command : Command) (faults : List ReadStage) : Prop where
  sound : faults = [] → exit.code = 0 ∨ exit.Reports Unprefixed
  named : ∀ stage ∈ faults, stage = .header ∨ command.isPrint = false →
    exit.Reports (Starts damagedStart)
  unnamed : .data ∈ faults → command.isPrint = true → exit.Reports fun line =>
    Unprefixed line ∧ ∃ reason,
      line = "Error: " ++ (ArchiveError.reading (archiveOf command) .data reason).message

section

variable {command : Command} {host : Host} {completed : Completed}

theorem Fate.reports_unopened (fate : Fate command host completed)
    (refused : ∀ script, ¬ command.Opens host script) (filter : LogFilter) :
    (exitOf filter completed).Reports (Starts unopenedStart) := by
  cases fate with
  | unopened _ cause opening =>
      exact exitOf_reports filter rfl (Failure.line_of_unopened cause opening)
  | fine opens => exact absurd opens (refused _)
  | damaged opens => exact absurd opens (refused _)
  | unnamed opens => exact absurd opens (refused _)
  | other opens => exact absurd opens (refused _)

theorem Fate.fits {script : Script} (fate : Fate command host completed)
    (opens : command.Opens host script) (filter : LogFilter) :
    ∃ stage?, host.Faults script completed.host stage? ∧
      (exitOf filter completed).Fits command stage?.toList := by
  cases fate with
  | unopened refused => exact absurd opens (refused script)
  | fine also sound =>
      rw [Command.opens_unique opens also]
      refine ⟨none, sound, fun _ => .inl rfl, ?_, ?_⟩
      · simp
      · simp
  | @damaged _ _ error stage _ _ also told cause reading named =>
      have notOpening : error.isOpenError = false := by
        cases error with
        | opening => cases reading
        | reading => rfl
      have line := Failure.line_of_damaged cause notOpening
      rw [Command.opens_unique opens also]
      refine ⟨some stage, told, ?_, ?_, ?_⟩
      · simp
      · intro _ _ _
        exact exitOf_reports filter rfl line
      · intro data print
        rw [← List.mem_singleton.mp data] at named
        rcases named with header | other
        · cases header
        · cases print.symm.trans other
  | @unnamed _ reason _ _ also told print =>
      -- Printing is the one command that does not name a failure of data as one of the archive.
      let failure : Failure := .copy (.archive (.reading (archiveOf command) .data reason))
      have other : failure.archiveError? = none := rfl
      obtain ⟨same, unprefixed⟩ := Failure.line_of_other other
      rw [Command.opens_unique opens also]
      refine ⟨some .data, told, ?_, ?_, ?_⟩
      · simp
      · intro stage member named
        rw [List.mem_singleton.mp member] at named
        rcases named with header | unprinted
        · cases header
        · cases print.symm.trans unprinted
      · intro _ _
        exact exitOf_reports filter rfl ⟨unprefixed, reason, same⟩
  | other also sound cause =>
      rw [Command.opens_unique opens also]
      refine ⟨none, sound, ?_, ?_, ?_⟩
      · intro _
        exact .inr (exitOf_reports filter rfl (Failure.line_of_other cause).2)
      · simp
      · simp

end

theorem run_of_parsed {arguments : List Bytes} {command : Command}
    (parsed : readArguments arguments = .ok (.run command)) (logSetting : Option String)
    (host : Host) :
    run arguments logSetting host = (exitOf (.ofSetting logSetting) (runCommand command host),
      (runCommand command host).host) := by
  simp only [run, parsed]

/-- What a run with arguments that make a command comes to. The code tells whether the command has
succeeded. An archive that does not open is reported as one that cannot be opened. One that opens is
reported by what its decoder has failed to answer among all calls of the run. -/
theorem run_classified {arguments : List Bytes} {command : Command}
    (parsed : readArguments arguments = .ok (.run command)) (logSetting : Option String)
    (host : Host) :
    let ran := run arguments logSetting host
    (ran.1.code = 0 ↔ command.Succeeds host) ∧ (ran.1.code = 0 ∨ ran.1.code = 1) ∧
    ((∀ script, ¬ command.Opens host script) → ran.1.Reports (Starts unopenedStart)) ∧
    ∀ script, command.Opens host script →
      ∃ calls, ran.2.calls = host.calls ++ calls.map (Prod.mk host.allocated) ∧
        ran.1.Fits command ((Handle.ofScript host.allocated script).faults calls) := by
  intro ran
  have fate := runCommand_fate command host
  have made : ran = _ := run_of_parsed parsed logSetting host
  rw [made]
  obtain ⟨ok, codes⟩ := exitOf_code (.ofSetting logSetting) (runCommand command host)
  refine ⟨ok.trans (runCommand_ok_iff command host), codes, ?_, ?_⟩
  · intro refused
    exact fate.reports_unopened refused _
  · intro script opens
    obtain ⟨stage?, ⟨calls, called, faults⟩, fits⟩ := fate.fits opens (.ofSetting logSetting)
    rw [← faults] at fits
    exact ⟨calls, called, fits⟩

/-- An archive of one file, of which all but the first byte is lost. -/
def tornScript : Script :=
  let header : Header := ⟨some [0x78], none, 2, true, 0o100644⟩
  let lost : DataItem :=
    { serving := .raw (-30) [], diagnostic := { text := some [0x6C, 0x6F, 0x73, 0x74] } }
  { headers := [{ header := some header, data := [{ serving := .content [1] }, lost] }] }

def tornHost : Host := { decoders := [some tornScript], tree := treeWith [0x61] }

/-- What is lost of a member is noticed when the archive is unpacked. -/
theorem torn_unpack_names_damage :
    let arguments := ["unpack", "a", "--out", "o"].map Text.Utf8.encode
    let command : Command := .unpack [0x61] [0x6F] none
    readArguments arguments = .ok (.run command) ∧ command.Opens tornHost tornScript ∧
      (run arguments none tornHost).1.Reports (Starts damagedStart) := by
  intro arguments command
  have parsed : readArguments arguments = .ok (.run command) := by decide +kernel
  have opens : command.Opens tornHost tornScript :=
    ⟨by decide +kernel, ⟨[], rfl⟩, by decide, by decide, rfl⟩
  have torn : (Handle.ofScript 0 tornScript).faults
      ((runCommand command tornHost).host.calls.map Prod.snd) = [.data] := by cbv
  obtain ⟨_, _, _, classified⟩ := run_classified parsed none tornHost
  obtain ⟨calls, called, fits⟩ := classified tornScript opens
  have all : (runCommand command tornHost).host.calls.map Prod.snd = calls := by
    rw [run_of_parsed parsed] at called
    rw [called]
    simp [tornHost, Host.calls]
  rw [all] at torn
  refine ⟨parsed, opens, fits.named .data ?_ (.inr rfl)⟩
  exact List.mem_of_mem_head? (congrArg List.head? torn)

/-- Not every damage is reported as such: printing that member names none. -/
theorem torn_print_names_no_damage :
    ¬ ∀ (arguments : List Bytes) (command : Command) (logSetting : Option String) (host : Host)
      (script : Script) (calls : List Call), readArguments arguments = .ok (.run command) →
        command.Opens host script →
        (run arguments logSetting host).2.calls =
          host.calls ++ calls.map (Prod.mk host.allocated) →
        ∀ stage ∈ (Handle.ofScript host.allocated script).faults calls,
          (run arguments logSetting host).1.Reports (Starts damagedStart) := by
  intro named
  let command : Command := .print [0x61] "x"
  let calls : List Call := openingCalls 10240 [0x61] ++
    [.nextHeader, .readData 10240, .readData 10240, .free]
  let failure : Failure := .copy (.archive (.reading [0x61] .data (.stated "lost")))
  have other : failure.archiveError? = none := rfl
  have parsed : readArguments (["cat", "a", "x"].map Text.Utf8.encode) = .ok (.run command) := by
    decide +kernel
  have opens : command.Opens tornHost tornScript :=
    ⟨by decide +kernel, ⟨[], rfl⟩, by decide, by decide, rfl⟩
  have called : (runCommand command tornHost).host.calls = calls.map (Prod.mk 0) := by cbv
  have failed : (runCommand command tornHost).result = .error failure := by cbv
  have reports := named _ _ none tornHost tornScript calls parsed opens
  rw [run_of_parsed parsed] at reports
  obtain ⟨_, line, last, starts⟩ := reports called .data (by decide)
  simp only [exitOf, failed, List.getLast?_concat] at last
  cases last
  exact (Failure.line_of_other other).2.2 starts

end CommandLine

end ArchiveTraversal
