import Mathlib
import ArchiveTraversal.Proofs.Decoder.Custody
import ArchiveTraversal.Proofs.Unpack.Delivery

/-!
What the journal tells of an unpack without a limit: its chunks are just those that are written,
in order, from the opening of the archive to the release of the decoder.
-/

namespace ArchiveTraversal

open Decoder

namespace Host

/-- The later journal tells of just the chunks that have been written. -/
def Transfers (before after : Host) (writes : List Write) : Prop :=
  ∃ records, before.Adds after records ∧ records.filterMap Record.chunk? = writes.map Write.size

theorem Transfers.refl (host : Host) : host.Transfers host [] := ⟨[], .refl host, rfl⟩

theorem Transfers.trans {before between after : Host} {writes more : List Write}
    (first : before.Transfers between writes) (second : between.Transfers after more) :
    before.Transfers after (writes ++ more) := by
  obtain ⟨records, adds, sizes⟩ := first
  obtain ⟨others, further, sizesToo⟩ := second
  exact ⟨records ++ others, adds.trans further, by
    rw [List.filterMap_append, sizes, sizesToo, List.map_append]⟩

theorem Adds.transfers {before after : Host} {records : List Record}
    (adds : before.Adds after records) (none : ∀ entry ∈ records, entry.chunk? = none) :
    before.Transfers after [] :=
  ⟨records, adds, List.filterMap_eq_nil_iff.mpr none⟩

theorem Clears.transfers {before after : Host} (clears : before.Clears after) :
    before.Transfers after [] := by
  obtain ⟨paths, adds⟩ := clears
  apply adds.transfers
  intro entry member
  obtain ⟨path, _, rfl⟩ := List.mem_map.mp member
  rfl

end Host

theorem Session.Going.advance_transfers {session : Session} (going : session.Going) (host : Host) :
    host.Transfers (session.advance host).host [] := by
  obtain ⟨cancels, event, tells, adds⟩ := going.advance_adds host
  refine ⟨_, adds, ?_⟩
  generalize (session.advance host).value = value at tells
  rw [List.cons_append, List.filterMap_cons_none rfl, List.filterMap_append, Record.chunks_raised]
  cases tells <;> rfl

namespace UnpackJob

variable {job : UnpackJob} {tally : Tally} {session : Session} {host : Host}

theorem treat_number (job : UnpackJob) (visit : Visit) :
    (job.treat visit).session.handle.number = visit.session.handle.number := by
  have treats := job.treat_treats visit
  generalize job.treat visit = outcome at *
  cases treats with
  | @file _ location ready =>
      have fills := job.fillFile_fills visit.tally visit.session ready visit.info.path location
      generalize job.fillFile _ location visit.tally visit.session ready = outcome at *
      cases fills <;> exact Session.forEachChunk_number ..
  | _ => rfl

theorem meets_number (job : UnpackJob) (tally : Tally) (session : Session) (host : Host)
    (header : Header) :
    (job.treat (meets tally session host header)).session.handle.number = session.handle.number :=
  (job.treat_number _).trans (session.advance_number host)

theorem Goes.number {visits : List Visit} {final : Outcome (Except UnpackError Tally)}
    (goes : job.Goes tally session host visits final) :
    final.session.handle.number = session.handle.number := by
  induction goes with
  | cancelled => rfl
  | unreadable => exact Session.advance_number ..
  | ended => exact Session.advance_number ..
  | stopped => exact job.meets_number ..
  | member _ _ _ _ ih => exact ih.trans (job.meets_number ..)

theorem readChunk_transfers (onData : session.OnData) (location : Location) {byte : UInt8}
    {more : Bytes} (filled : (session.readChunk host).value = .ok (byte :: more)) :
    host.Transfers (session.readChunk host).host [⟨location, byte :: more⟩] := by
  obtain ⟨records, adds, _, tells⟩ := onData.readChunk_data host
  rw [filled, Prod.mk.injEq] at tells
  exact ⟨records, adds, tells.1⟩

theorem walk_transfers (job : UnpackJob) (onData : session.OnData) (host : Host)
    (location : Location) (written : Written) :
    ∃ seen : List Bytes,
      (session.forEachChunk (job.limited none).writer written host).value.2.chunks =
        seen.reverse ++ written.chunks ∧
      host.Transfers (session.forEachChunk (job.limited none).writer written host).host
        (seen.map (Write.mk location)) := by
  obtain ⟨records, seen, adds, _, sizes, shown, _⟩ :=
    onData.forEachChunk_data (job.limited none).writer written host
  generalize session.forEachChunk (job.limited none).writer written host = outcome at *
  obtain ⟨⟨walk, last⟩, after, final⟩ := outcome
  cases shown with
  | taken takes =>
      refine ⟨seen, (writer_takes takes).1, records, adds, ?_⟩
      rw [sizes, List.map_map]
      rfl
  | refused _ refuses => cases refuses

theorem fillFile_settles (job : UnpackJob) (name : String) (location : Location) (tally : Tally)
    (session : Session) (host : Host) :
    (job.walk tally session host).host.Transfers
      (job.fillFile name location tally session host).host [] := by
  have fills := job.fillFile_fills tally session host name location
  generalize job.fillFile name location tally session host = outcome at *
  cases fills with
  | unreadable => exact .refl _
  | stopped => exact .refl _
  | complete =>
      have written := (job.filled location tally session host).event_adds (.memberWritten name)
      have adds := written.trans (job.report_adds (job.counted tally session host) _ name)
      exact ⟨_, adds, Record.chunks_raised _⟩

theorem fillFile_transfers (job : UnpackJob) (onData : session.OnData) (name : String)
    (location : Location) (tally : Tally) (host : Host) :
    host.Transfers ((job.limited none).fillFile name location tally session host).host
      (((job.limited none).walk tally session host).value.2.chunks.reverse.map
        (Write.mk location)) := by
  obtain ⟨seen, chunks, transfers⟩ :=
    walk_transfers job onData host location { total := tally.bytes }
  rw [walk, chunks, List.append_nil, List.reverse_reverse, ← List.append_nil (seen.map _)]
  exact transfers.trans (fillFile_settles ..)

theorem treat_transfers (job : UnpackJob) (visit : Visit)
    (onData : visit.info.isDirectory = false → visit.session.OnData) :
    visit.host.Transfers ((job.limited none).treat visit).host
      ((job.limited none).writesOf visit) := by
  have treats := (job.limited none).treat_treats visit
  generalize (job.limited none).treat visit = outcome at *
  cases treats with
  | refused _ nowhere =>
      rw [writesOf_of_nowhere _ nowhere]
      exact ⟨_, visit.host.event_adds _, rfl⟩
  | obstructed clears nowhere =>
      rw [writesOf_of_nowhere _ nowhere]
      exact clears.transfers
  | directory _ _ clears nowhere =>
      rw [writesOf_of_nowhere _ nowhere]
      exact clears.transfers
  | blocked _ _ clears nowhere =>
      rw [writesOf_of_nowhere _ nowhere]
      exact clears.transfers.trans ⟨_, Host.event_adds _ _, rfl⟩
  | file _ regular clears found =>
      rw [writesOf_of_target _ found]
      exact clears.transfers.trans (fillFile_transfers job (onData regular) ..)

theorem Goes.transfers {visits : List Visit} {final : Outcome (Except UnpackError Tally)}
    (goes : (job.limited none).Goes tally session host visits final) (going : session.Going) :
    host.Transfers final.host ((job.limited none).writes visits) := by
  induction goes with
  | cancelled => exact .refl _
  | unreadable => exact going.advance_transfers _
  | ended => exact going.advance_transfers _
  | @stopped tally session host header _ _ moved _ =>
      obtain ⟨_, movedTo⟩ := Session.movedTo_of_advance moved
      have visited := treat_transfers job (meets tally session host header) movedTo.onData
      rw [writes, List.flatMap_singleton]
      exact (going.advance_transfers _).trans visited
  | @member tally _ session host header _ _ _ moved done _ ih =>
      obtain ⟨_, movedTo⟩ := Session.movedTo_of_advance moved
      have waits := meets_going moved done
      have visited := treat_transfers job (meets tally session host header) movedTo.onData
      rw [writes, List.flatMap_cons]
      exact ((going.advance_transfers _).trans visited).trans (ih waits)

end UnpackJob

theorem Record.chunk?_of_setup {entry : Record} (setup : entry.isSetup = true) :
    entry.chunk? = none := by
  rcases setup_cases setup with ⟨_, _, rfl⟩ | ⟨_, _, _, rfl⟩ <;> rfl

theorem Reader.openSession_transfers (path : Path) (options : ReaderOptions) (host : Host) :
    host.Transfers ((new path options).openSession host).2 [] := by
  obtain ⟨records, adds, setups⟩ := openSession_adds path options host
  exact adds.transfers fun entry member => Record.chunk?_of_setup (setups entry member)

theorem Session.close_transfers (session : Session) (host : Host) :
    host.Transfers (session.close host).2.2 [] := by
  obtain ⟨event, tells, adds⟩ := session.close_adds host
  refine ⟨_, adds, ?_⟩
  cases tells <;> rfl

theorem unpackArchive_transfers (path output : Path) (reader : ReaderOptions) (observer : Observer)
    (host : Host) :
    host.Transfers (unpackArchive path output ⟨none, reader⟩ observer host).2
      (unpackWrites path output ⟨none, reader⟩ observer host) := by
  have opening := Reader.openSession_transfers path reader host
  have unpacks := unpackArchive_unpacks path output ⟨none, reader⟩ observer host
  rw [unpacks.writes]
  generalize unpackArchive path output ⟨none, reader⟩ observer host = result at *
  generalize unpackVisits path output ⟨none, reader⟩ observer host = visits at *
  cases unpacks with
  | refused refused =>
      rw [refused] at opening
      exact opening
  | obstructed opened =>
      rw [opened] at opening
      exact opening.trans (Session.close_transfers ..)
  | @ran session between made _ final opened making goes =>
      obtain ⟨_, _, _, _, _, start⟩ := Reader.openSession_opened opened
      rw [opened] at opening
      have freely : (UnpackJob.limited ⟨output, none, observer⟩ none).Goes {} session _ _ final :=
        goes
      have went := freely.transfers (.inl start)
      have whole := opening.trans (went.trans (final.session.close_transfers final.host))
      rw [List.append_nil] at whole
      exact whole

end ArchiveTraversal
