import ArchiveTraversal.CommandLine.Run
import ArchiveTraversal.Proofs.Decoder.Custody
import ArchiveTraversal.Proofs.Unpack.Steps

/-!
Whole runs follow the decoder protocol: any program of operations on a reader that is dropped in
the end, a listing, an unpack, and the printing of a member. Each starts idle, keeps custody of a
session for as long as it has one, and ends idle.
-/

namespace ArchiveTraversal

open Decoder

variable {scripts : List (Option Script)} {host : Host}

def Position.Custody (scripts : List (Option Script)) (position : Position) (host : Host) : Prop :=
  match position with
  | .atRest reader => reader.Custody scripts host
  | .inSession session => session.Custody scripts host

theorem Reader.Custody.perform {reader : Reader} (custody : reader.Custody scripts host)
    (operation : Operation) :
    (reader.perform host operation).position.Custody scripts
      (reader.perform host operation).host := by
  cases operation with
  | openSession =>
      simp only [Reader.perform]
      rcases custody.openSession with ⟨_, _, _, same, _, kept⟩ | ⟨_, _, same, held⟩
      · rw [same]
        exact kept
      · rw [same]
        exact held
  | close => exact custody.close.1
  | _ => exact custody

theorem Session.Custody.perform {session : Session} (custody : session.Custody scripts host)
    (operation : Operation) :
    (session.perform host operation).position.Custody scripts
      (session.perform host operation).host := by
  cases operation with
  | advance => exact custody.advance
  | read => exact custody.readChunk
  | drain => exact custody.forEachChunk collector []
  | copy sink state => exact custody.forEachChunk (copier sink.recording) (0, state, [])
  | skip => exact custody.skipEntry
  | close => exact custody.close
  | drop => exact custody.close
  | _ => exact custody

theorem Position.Custody.perform {position : Position} (custody : position.Custody scripts host)
    (operation : Operation) :
    (position.perform host operation).position.Custody scripts
      (position.perform host operation).host := by
  cases position with
  | atRest reader => exact Reader.Custody.perform custody operation
  | inSession session => exact Session.Custody.perform custody operation

theorem Position.Custody.runProgram {position : Position}
    (custody : position.Custody scripts host) (operations : List Operation) :
    (runProgram operations position host).2.1.Custody scripts
      (runProgram operations position host).2.2 := by
  induction operations generalizing position host with
  | nil => exact custody
  | cons operation rest ih => exact ih (custody.perform operation)

theorem Position.Custody.finish {position : Position} (custody : position.Custody scripts host) :
    (position.finish host).Idle scripts := by
  cases position with
  | atRest reader => exact (Reader.Custody.close custody).2
  | inSession session => exact Session.Custody.close custody

theorem Session.Custody.collectMembers {session : Session}
    (custody : session.Custody scripts host) :
    (session.collectMembers host).session.Custody scripts (session.collectMembers host).host := by
  fun_induction Session.collectMembers session host with
  | case1 => exact custody.advance
  | case2 => exact custody.advance
  | case3 _ _ _ _ _ _ ih => exact ih custody.advance

theorem Session.Custody.seek {session : Session} (custody : session.Custody scripts host)
    (name : String) :
    (session.seek name host).session.Custody scripts (session.seek name host).host := by
  fun_induction Session.seek name session host with
  | case1 => exact custody.advance
  | case2 => exact custody.advance
  | case3 => exact custody.advance
  | case4 _ _ _ _ _ _ ih => exact ih custody.advance

namespace Host

theorem Rearranged.quiet {before after : Host} (rearranged : before.Rearranged after) :
    before.Quiet after := by
  obtain ⟨events, logged⟩ := rearranged.journal
  constructor
  · have none : (events.map Record.event).filterMap Record.call? = [] := by
      simp [List.filterMap_map, Function.comp_def, Record.call?]
    rw [calls, calls, logged, List.filterMap_append, none, List.append_nil]
  · exact rearranged.allocated
  · exact rearranged.decoders

end Host

namespace UnpackJob

theorem report_quiet (job : UnpackJob) (name : String) (tally : Tally) (host : Host) :
    host.Quiet (job.report name tally host).2 := by
  have told : host.Quiet (host.record (.progress name tally.bytes)) := by
    constructor
    · simp [Host.calls, Host.record, Record.call?]
    · rfl
    · rfl
  exact told.trans (Host.raiseIf_quiet ..)

theorem fillFile_custody (job : UnpackJob) (name : String) (location : Location) (tally : Tally)
    {session : Session} (custody : session.Custody scripts host) :
    (job.fillFile name location tally session host).session.Custody scripts
      (job.fillFile name location tally session host).host := by
  have walked := custody.forEachChunk job.writer { total := tally.bytes }
  have filled : ∀ content, Host.Quiet
      (session.forEachChunk job.writer { total := tally.bytes } host).host
      ((session.forEachChunk job.writer { total := tally.bytes } host).host.fill location content) :=
    fun _ => ⟨rfl, rfl, rfl⟩
  unfold fillFile
  dsimp only
  split
  · exact walked.quiet (filled _)
  · exact walked.quiet (filled _)
  · exact ((walked.quiet (filled _)).quiet (Host.event_quiet ..)).quiet (report_quiet ..)

theorem unpackMember_custody (job : UnpackJob) (info : MemberInfo) (tally : Tally)
    {session : Session} (custody : session.Custody scripts host) :
    (job.unpackMember info tally session host).session.Custody scripts
      (job.unpackMember info tally session host).host := by
  rcases job.unpackMember_reaches tally session host info with
    ⟨_, _, rearranged, ends⟩ | ⟨_, location, between, rearranged, ends⟩
  · rw [ends]
    exact custody.quiet rearranged.quiet
  · rw [ends]
    exact job.fillFile_custody info.path location tally (custody.quiet rearranged.quiet)

theorem unpackMembers_custody (job : UnpackJob) (tally : Tally) {session : Session}
    (custody : session.Custody scripts host) :
    (job.unpackMembers tally session host).session.Custody scripts
      (job.unpackMembers tally session host).host := by
  fun_induction unpackMembers job tally session host with
  | case1 => exact custody
  | case2 => exact custody.advance
  | case3 => exact custody.advance
  | case4 => exact job.unpackMember_custody _ _ custody.advance
  | case5 _ _ _ _ _ _ _ _ _ _ ih => exact ih (job.unpackMember_custody _ _ custody.advance)

end UnpackJob

namespace Host.Idle

variable (idle : host.Idle scripts)
include idle

theorem runProgram (path : Path) (options : ReaderOptions) (operations : List Operation) :
    let ended := runProgram operations (.atRest (Reader.new path options)) host
    (ended.2.1.finish ended.2.2).Idle scripts := by
  have rest : Position.Custody scripts (.atRest (Reader.new path options)) host := idle
  exact (rest.runProgram operations).finish

theorem ofArchive (path : Path) (options : ReaderOptions) :
    (Listing.ofArchive path options host).2.Idle scripts := by
  have rest : (Reader.new path options).Custody scripts host := idle
  unfold Listing.ofArchive
  rcases rest.openSession with ⟨_, _, _, same, kept, _⟩ | ⟨_, _, same, held⟩
  · rw [same]
    exact kept
  · rw [same]
    exact held.collectMembers.close

theorem unpackArchive (path output : Path) (options : UnpackOptions) (observer : Observer) :
    (unpackArchive path output options observer host).2.Idle scripts := by
  have rest : (Reader.new path options.reader).Custody scripts host := idle
  unfold ArchiveTraversal.unpackArchive
  rcases rest.openSession with ⟨_, _, _, same, kept, _⟩ | ⟨session, between, same, held⟩
  · rw [same]
    exact kept
  · have made : session.Custody scripts (between.makeDirectories output).2 :=
      held.quiet ⟨rfl, rfl, rfl⟩
    rw [same]
    dsimp only
    split
    · rename_i last
      rw [last] at made
      exact made.close
    · rename_i last
      rw [last] at made
      exact (UnpackJob.unpackMembers_custody _ _ made).close

theorem runPrint (path : Path) (name : String) :
    (CommandLine.runPrint path name host).host.Idle scripts := by
  have rest : (Reader.new path).Custody scripts host := idle
  unfold CommandLine.runPrint
  rcases rest.openSession with ⟨_, _, _, same, kept, _⟩ | ⟨session, between, same, held⟩
  · rw [same]
    exact kept
  · have sought := held.seek name
    rw [same]
    dsimp only
    split
    · have copied := sought.forEachChunk (Session.copier Sink.unlimited.recording) (0, (), [])
      unfold CommandLine.printMember
      dsimp only
      split
      · exact copied.close
      · exact (copied.quiet (Host.event_quiet ..)).close
    · exact sought.close
    · exact sought.close

end Host.Idle

/-- Whatever decoders there are and however they answer, every run uses them by the protocol. -/
theorem calls_follow_protocol (scripts : List (Option Script)) (tree : FileTree)
    (cancelled : Bool) :
    let host : Host := { decoders := scripts, tree := tree, cancelled := cancelled }
    (∀ path options operations,
      let ended := runProgram operations (.atRest (Reader.new path options)) host
      Protocol scripts (ended.2.1.finish ended.2.2).calls) ∧
    (∀ path options, Protocol scripts (Listing.ofArchive path options host).2.calls) ∧
    (∀ path output options observer,
      Protocol scripts (unpackArchive path output options observer host).2.calls) ∧
    ∀ path name, Protocol scripts (CommandLine.runPrint path name host).host.calls := by
  intro host
  have idle : host.Idle scripts := ⟨.start, rfl⟩
  refine ⟨?_, ?_, ?_, ?_⟩
  · intro path options operations
    exact (idle.runProgram path options operations).settled.protocol
  · intro path options
    exact (idle.ofArchive path options).settled.protocol
  · intro path output options observer
    exact (idle.unpackArchive path output options observer).settled.protocol
  · intro path name
    exact (idle.runPrint path name).settled.protocol

end ArchiveTraversal
