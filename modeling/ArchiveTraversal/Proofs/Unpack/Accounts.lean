import ArchiveTraversal.Proofs.Listing
import ArchiveTraversal.Proofs.Unpack.Placement
import ArchiveTraversal.Proofs.Unpack.Totals

/-!
The accounts of an unpack. Its tally, its journal and the listing of the archive agree: each member
is counted once, and each finished file is reported with the bytes of all files up to it.
-/

namespace ArchiveTraversal

open Decoder

/-- Reports of files in order, each with the running total: the bytes before them all, and those of
all files up to it. -/
def account (before : Nat) : List Finished → List (String × Nat)
  | [] => []
  | file :: rest => (file.name, before + file.size) :: account (before + file.size) rest

theorem account_append (before : Nat) (files more : List Finished) :
    account before (files ++ more) =
      account before files ++ account (before + (files.map Finished.size).sum) more := by
  induction files generalizing before with
  | nil => rfl
  | cons file rest ih =>
      simp only [List.cons_append, account, ih, List.map_cons, List.sum_cons, Nat.add_assoc]

theorem account_ge {before : Nat} {files : List Finished} {report : String × Nat}
    (member : report ∈ account before files) : before ≤ report.2 := by
  induction files generalizing before with
  | nil => cases member
  | cons file rest ih =>
      rcases List.mem_cons.mp member with here | later
      · rw [here]
        exact Nat.le_add_right ..
      · exact (Nat.le_add_right ..).trans (ih later)

theorem account_sorted (before : Nat) (files : List Finished) :
    ((account before files).map Prod.snd).Pairwise (· ≤ ·) := by
  induction files generalizing before with
  | nil => exact .nil
  | cons file rest ih =>
      apply List.Pairwise.cons
      · intro total member
        obtain ⟨report, reported, rfl⟩ := List.mem_map.mp member
        exact account_ge reported
      · exact ih _

theorem length_account (before : Nat) (files : List Finished) :
    (account before files).length = files.length := by
  induction files generalizing before with
  | nil => rfl
  | cons file rest ih => exact congrArg (· + 1) (ih _)

def MemberInfo.isSafeDirectory (info : MemberInfo) : Bool :=
  info.isDirectory && (Safety.destination info).toOption.isSome

namespace UnpackJob

variable {job : UnpackJob} {visit : Visit} {tally next : Tally} {session : Session} {host : Host}

structure Sums (job : UnpackJob) (tally : Tally) (visits : List Visit) (totals : Totals)
    (last : Tally) : Prop where
  files : last.files = tally.files + (visits.filterMap job.finished?).length
  directories : last.directories =
    tally.directories + visits.countP (·.info.isSafeDirectory)
  skipped : last.skipped = tally.skipped + totals.skips
  bytes : last.bytes = tally.bytes + totals.read
  sizes : totals.read = ((visits.filterMap job.finished?).map Finished.size).sum
  once : (visits.filterMap job.finished?).length + visits.countP (·.info.isSafeDirectory) +
    totals.skips = visits.length

theorem Sums.nil (job : UnpackJob) (tally : Tally) : job.Sums tally [] {} tally := by
  constructor <;> rfl

theorem Sums.append {visits later : List Visit} {totals further : Totals} {last : Tally}
    (first : job.Sums tally visits totals next) (second : job.Sums next later further last) :
    job.Sums tally (visits ++ later) (totals.add further) last := by
  constructor
  · rw [second.files, first.files, List.filterMap_append, List.length_append, Nat.add_assoc]
  · rw [second.directories, first.directories, List.countP_append, Nat.add_assoc]
  · rw [second.skipped, first.skipped, Nat.add_assoc]
    rfl
  · rw [second.bytes, first.bytes, Nat.add_assoc]
    rfl
  · rw [List.filterMap_append, List.map_append, List.sum_append, ← first.sizes, ← second.sizes]
    rfl
  · rw [List.filterMap_append, List.length_append, List.countP_append, List.length_append,
      ← first.once, ← second.once]
    dsimp only [Totals.add]
    omega

theorem Sums.of_skip (lost : job.finished? visit = none)
    (other : visit.info.isSafeDirectory = false) :
    job.Sums visit.tally [visit] { skips := 1 }
      { visit.tally with skipped := visit.tally.skipped + 1 } := by
  constructor <;> simp [lost, other]

theorem Sums.of_directory (lost : job.finished? visit = none)
    (safe : visit.info.isSafeDirectory = true) :
    job.Sums visit.tally [visit] {}
      { visit.tally with directories := visit.tally.directories + 1 } := by
  constructor <;> simp [lost, safe]

theorem Sums.of_file {file : Finished} (finished : job.finished? visit = some file)
    (other : visit.info.isSafeDirectory = false) {totals : Totals} (read : totals.read = file.size)
    (none : totals.skips = 0) :
    job.Sums visit.tally [visit] totals
      { visit.tally with
        files := visit.tally.files + 1, bytes := visit.tally.bytes + file.size } := by
  constructor <;> simp [finished, other, read, none]

theorem finished?_of_nowhere (job : UnpackJob)
    (nowhere : visit.host.target? job.output visit.info = none) : job.finished? visit = none := by
  simp only [finished?, nowhere]

/-- How visits show in the journal and in the tally. -/
structure Accounted (job : UnpackJob) (tally : Tally) (visits : List Visit) (host : Host)
    (outcome : Outcome (Except UnpackError Tally)) (totals : Totals) : Prop where
  told : Host.Told tally.bytes host outcome.host totals
  reports : totals.reports = account tally.bytes (visits.filterMap job.finished?)
  ends : totals.ends = (visits.filterMap job.finished?).length
  sums : ∀ last, outcome.value = .ok last → job.Sums tally visits totals last

theorem Accounted.of_lost {outcome : Outcome (Except UnpackError Tally)} {totals : Totals}
    (lost : job.finished? visit = none)
    (told : Host.Told visit.tally.bytes visit.host outcome.host totals)
    (silent : totals.reports = []) (goesOn : totals.ends = 0)
    (sums : ∀ last, outcome.value = .ok last → job.Sums visit.tally [visit] totals last) :
    job.Accounted visit.tally [visit] visit.host outcome totals := by
  have none : [visit].filterMap job.finished? = [] := List.filterMap_cons_none lost
  constructor
  · exact told
  · rw [none]
    exact silent
  · rw [none]
    exact goesOn
  · exact sums

theorem report_told (job : UnpackJob) (name : String) (tally : Tally) (host : Host) :
    Host.Told tally.bytes host (job.report name tally (host.event (.memberWritten name))).2
      { reports := [(name, tally.bytes)] } := by
  have written : Host.Told tally.bytes host (host.event (.memberWritten name)) {} := by
    apply (host.event_adds _).told
    intro entry member
    rw [List.mem_singleton.mp member]
    rfl
  refine written.plain_first ⟨_, job.report_adds tally _ name, ?_, ?_⟩
  · rw [← List.singleton_append, Totals.of_append,
      Totals.of_plain fun entry => Record.plain_of_raised]
    rfl
  · rw [← List.singleton_append]
    apply (Timely.of_report name tally.bytes).append
    apply Timely.of_no_report
    exact congrArg Totals.reports (Totals.of_plain fun entry => Record.plain_of_raised)

/-- What a walk to the end of the data has read is all in the file. -/
theorem walk_read {ready : Host} {records : List Record} {seen : List Bytes}
    (sizes : records.filterMap Record.chunk? = seen.map List.length)
    (shown : Session.Shown job.writer { total := tally.bytes } seen
      (job.walk tally session ready).value)
    (complete : (job.walk tally session ready).value.1 = .complete) :
    (records.filterMap Record.chunk?).sum =
      (job.walk tally session ready).value.2.chunks.reverse.flatten.length := by
  generalize (job.walk tally session ready).value = value at *
  cases shown with
  | taken takes =>
      rw [sizes, (writer_takes takes).1, List.append_nil, List.reverse_reverse,
        List.length_flatten]
  | refused => cases complete

theorem fillFile_accounted {location : Location} {ready : Host}
    (found : visit.host.target? job.output visit.info = some (location, ready))
    (regular : visit.info.isDirectory = false) (clears : visit.host.Clears ready)
    (onData : visit.session.OnData) :
    ∃ totals, job.Accounted visit.tally [visit] visit.host
      (job.fillFile visit.info.path location visit.tally visit.session ready) totals := by
  obtain ⟨records, seen, adds, data, sizes, shown, ends⟩ :=
    onData.forEachChunk_data job.writer { total := visit.tally.bytes } ready
  have totals := Totals.of_data data
  have walked : Host.Told visit.tally.bytes visit.host
      (job.filled location visit.tally visit.session ready) (Totals.of records) :=
    clears.told.plain_first ⟨records, adds, rfl, .of_no_report (congrArg Totals.reports totals)⟩
  have other : visit.info.isSafeDirectory = false := by
    rw [MemberInfo.isSafeDirectory, regular, Bool.false_and]
  have fills := job.fillFile_fills visit.tally visit.session ready visit.info.path location
  generalize job.fillFile _ location visit.tally visit.session ready = outcome at *
  rw [totals, ends] at walked
  cases fills with
  | unreadable broken =>
      have lost : job.finished? visit = none := by simp [finished?, found, broken]
      refine ⟨_, .of_lost lost walked rfl (congrArg Walk.ends broken) ?_⟩
      intro last ok
      cases ok
  | stopped broken =>
      have lost : job.finished? visit = none := by simp [finished?, found, broken]
      refine ⟨_, .of_lost lost walked rfl (congrArg Walk.ends broken) ?_⟩
      intro last ok
      cases ok
  | complete complete =>
      have finished : job.finished? visit = some ⟨visit.info.path,
          (job.walk visit.tally visit.session ready).value.2.chunks.reverse⟩ := by
        simp [finished?, found, complete]
      have total : (job.counted visit.tally visit.session ready).bytes = visit.tally.bytes +
          (job.walk visit.tally visit.session ready).value.2.chunks.reverse.flatten.length :=
        job.walk_total visit.tally visit.session ready
      have reported := job.report_told visit.info.path
        (job.counted visit.tally visit.session ready)
        (job.filled location visit.tally visit.session ready)
      rw [total] at reported
      -- All that the walk has read is in the file, as it was neither stopped nor cut short.
      rw [walk_read sizes shown complete] at walked
      refine ⟨_, walked.trans reported, ?_, ?_, ?_⟩
      · rw [List.filterMap_cons_some finished]
        rfl
      · rw [List.filterMap_cons_some finished]
        exact congrArg Walk.ends complete
      · intro last ok
        dsimp only [report] at ok
        split at ok
        · cases ok
          have counted : job.counted visit.tally visit.session ready = { visit.tally with
              files := visit.tally.files + 1
              bytes := visit.tally.bytes + Finished.size ⟨visit.info.path,
                (job.walk visit.tally visit.session ready).value.2.chunks.reverse⟩ } := by
            rw [Finished.size, ← total]
            rfl
          rw [counted]
          exact .of_file finished other rfl rfl
        · cases ok

theorem treat_accounted (job : UnpackJob) (visit : Visit)
    (onData : visit.info.isDirectory = false → visit.session.OnData) :
    ∃ totals, job.Accounted visit.tally [visit] visit.host (job.treat visit) totals := by
  have treats := job.treat_treats visit
  generalize job.treat visit = outcome at *
  cases treats with
  | refused unaccepted nowhere =>
      have lost := job.finished?_of_nowhere nowhere
      have other : visit.info.isSafeDirectory = false := by
        rw [MemberInfo.isSafeDirectory, unaccepted]
        exact Bool.and_false _
      refine ⟨_, .of_lost lost (Host.told_of_skip _ _ _ rfl rfl rfl) rfl rfl ?_⟩
      intro last ok
      cases ok
      exact .of_skip lost other
  | obstructed clears nowhere =>
      have lost := job.finished?_of_nowhere nowhere
      refine ⟨_, .of_lost lost clears.told rfl rfl ?_⟩
      intro last ok
      cases ok
  | directory safe is clears nowhere =>
      have lost := job.finished?_of_nowhere nowhere
      have directory : visit.info.isSafeDirectory = true := by
        rw [MemberInfo.isSafeDirectory, is, safe]
        rfl
      refine ⟨_, .of_lost lost clears.told rfl rfl ?_⟩
      intro last ok
      cases ok
      exact .of_directory lost directory
  | blocked _ regular clears nowhere =>
      have lost := job.finished?_of_nowhere nowhere
      have other : visit.info.isSafeDirectory = false := by
        rw [MemberInfo.isSafeDirectory, regular, Bool.false_and]
      have told := Host.Told.plain_first clears.told
        (Host.told_of_skip _ visit.tally.bytes (.memberBlocked visit.info.path) rfl rfl rfl)
      refine ⟨_, .of_lost lost told rfl rfl ?_⟩
      intro last ok
      cases ok
      exact .of_skip lost other
  | file _ regular clears found => exact fillFile_accounted found regular clears (onData regular)

theorem Accounted.append {visits later : List Visit} {totals further : Totals}
    {between final : Outcome (Except UnpackError Tally)}
    (first : job.Accounted tally visits host between totals) (ok : between.value = .ok next)
    (second : job.Accounted next later between.host final further) :
    job.Accounted tally (visits ++ later) host final (totals.add further) := by
  have sums := first.sums next ok
  constructor
  · have onward := second.told
    rw [sums.bytes] at onward
    exact first.told.trans onward
  · rw [List.filterMap_append, account_append, ← sums.sizes, ← sums.bytes, ← first.reports,
      ← second.reports]
    rfl
  · rw [List.filterMap_append, List.length_append, ← first.ends, ← second.ends]
    rfl
  · intro last fine
    exact sums.append (second.sums last fine)

theorem Accounted.advanced {visits : List Visit} {totals : Totals}
    {final : Outcome (Except UnpackError Tally)} (going : session.Going)
    (accounted : job.Accounted tally visits (session.advance host).host final totals) :
    job.Accounted tally visits host final totals :=
  ⟨(going.advance_told host tally.bytes).plain_first accounted.told, accounted.reports,
    accounted.ends, accounted.sums⟩

theorem Goes.accounted {visits : List Visit} {final : Outcome (Except UnpackError Tally)}
    (goes : job.Goes tally session host visits final) (going : session.Going) :
    ∃ totals, job.Accounted tally visits host final totals := by
  induction goes with
  | @cancelled tally session host =>
      refine ⟨{}, ⟨[], .refl host, rfl, .of_no_report rfl⟩, rfl, rfl, ?_⟩
      intro last ok
      cases ok
  | @unreadable tally session host =>
      refine ⟨{}, going.advance_told host tally.bytes, rfl, rfl, ?_⟩
      intro last ok
      cases ok
  | @ended tally session host =>
      refine ⟨{}, going.advance_told host tally.bytes, rfl, rfl, ?_⟩
      intro last ok
      cases ok
      exact .nil job tally
  | @stopped tally session host header error _ moved broken =>
      obtain ⟨_, movedTo⟩ := Session.movedTo_of_advance moved
      obtain ⟨totals, accounted⟩ :=
        treat_accounted job (meets tally session host header) movedTo.onData
      have here : job.Accounted tally [meets tally session host header]
          (session.advance host).host _ totals := accounted
      refine ⟨totals, Accounted.advanced going ⟨here.told, here.reports, here.ends, ?_⟩⟩
      intro last ok
      cases ok
  | @member tally next session host header later final _ moved done rest ih =>
      obtain ⟨_, movedTo⟩ := Session.movedTo_of_advance moved
      have waits := meets_going moved done
      obtain ⟨totals, accounted⟩ :=
        treat_accounted job (meets tally session host header) movedTo.onData
      have here : job.Accounted tally [meets tally session host header]
          (session.advance host).host _ totals := accounted
      obtain ⟨further, others⟩ := ih waits
      exact ⟨_, Accounted.advanced going (here.append done others)⟩

/-- A visit finds a session that stands on its member, and has that member's data before it. -/
theorem Goes.visited {visits : List Visit} {final : Outcome (Except UnpackError Tally)}
    (goes : job.Goes tally session host visits final) :
    ∀ visit ∈ visits, visit.session.setup = session.setup ∧
      (visit.info.isDirectory = false → visit.session.OnData) := by
  induction goes with
  | cancelled => simp
  | unreadable => simp
  | ended => simp
  | @stopped tally session host header error _ moved broken =>
      obtain ⟨_, movedTo⟩ := Session.movedTo_of_advance moved
      intro visit member
      rw [List.mem_singleton.mp member]
      exact ⟨session.advance_setup host, movedTo.onData⟩
  | @member tally next session host header later final _ moved done rest ih =>
      obtain ⟨_, movedTo⟩ := Session.movedTo_of_advance moved
      intro visit member
      rcases List.mem_cons.mp member with here | there
      · rw [here]
        exact ⟨session.advance_setup host, movedTo.onData⟩
      · rw [← job.meets_setup tally session host header]
        exact ih visit there

end UnpackJob

def Visit.member (visit : Visit) : Member := ⟨visit.info, visit.session.handle.data⟩

theorem Session.MovedTo.members {before after : Session} {item : HeaderItem} {header : Header}
    (movedTo : before.MovedTo item header after) :
    members before.handle.headers =
      ⟨header.info, after.handle.data⟩ :: members after.handle.headers := by
  rw [movedTo.left, movedTo.data]
  simp [Decoder.members, movedTo.code, movedTo.given]

namespace UnpackJob

variable {job : UnpackJob} {tally last : Tally} {session : Session} {host : Host}
  {visits : List Visit} {final : Outcome (Except UnpackError Tally)}

/-- Members are visited in the order of the archive, and none is left out before the last. -/
theorem Goes.members (goes : job.Goes tally session host visits final) :
    visits.map Visit.member <+: members session.handle.headers := by
  induction goes with
  | cancelled => exact List.nil_prefix
  | unreadable => exact List.nil_prefix
  | ended => exact List.nil_prefix
  | @stopped tally session host header error _ moved broken =>
      obtain ⟨item, movedTo⟩ := Session.movedTo_of_advance moved
      rw [movedTo.members]
      exact List.prefix_cons_inj _ |>.mpr List.nil_prefix
  | @member tally next session host header later final _ moved done rest ih =>
      obtain ⟨item, movedTo⟩ := Session.movedTo_of_advance moved
      have headers := job.meets_headers tally session host header
      rw [movedTo.members, ← headers]
      exact List.prefix_cons_inj _ |>.mpr ih

theorem Goes.readable (goes : job.Goes tally session host visits final) (going : session.Going)
    (ok : final.value = .ok last) :
    readable session.handle.headers = some (visits.map Visit.info) := by
  induction goes with
  | cancelled => cases ok
  | unreadable => cases ok
  | stopped => cases ok
  | @ended tally session host _ ended =>
      rw [Session.readable_step, (going.advance_value host).symm.trans ended]
      rfl
  | @member tally next session host header later final _ moved done rest ih =>
      obtain ⟨item, movedTo⟩ := Session.movedTo_of_advance moved
      have waits := meets_going moved done
      have headers := job.meets_headers tally session host header
      rw [Session.readable_step, (going.advance_value host).symm.trans moved]
      dsimp only
      rw [movedTo.left, List.tail_cons, ← headers]
      exact congrArg (Option.map _) (ih waits ok)

end UnpackJob

/-- What it takes for a file to be finished: its member is a file with an accepted name, all chunks
that the decoder has for it have been read, and there is just that on disk. -/
structure Finished.Of (file : Finished) (job : UnpackJob) (capacity : Nat) (visit : Visit) :
    Prop where
  name : file.name = visit.info.path
  regular : visit.info.kind = .file
  safe : ∃ relative, Safety.destination visit.info = .ok relative
  everything : file.chunks = Decoder.chunks capacity visit.session.handle.data
  content : ∃ location ready, visit.host.target? job.output visit.info = some (location, ready) ∧
    (job.treat visit).host.tree = ready.tree.put location (.file file.chunks.flatten)

namespace UnpackJob

variable {job : UnpackJob} {visit : Visit}

theorem finished?_of {file : Finished}
    (onData : visit.info.isDirectory = false → visit.session.OnData)
    (positive : 0 < visit.session.setup.options.chunkSize)
    (finished : job.finished? visit = some file) :
    file.Of job visit.session.setup.options.chunkSize visit := by
  unfold finished? at finished
  split at finished
  · rename_i location ready found
    obtain ⟨regular, _, _⟩ := treat_of_target job found
    obtain ⟨relative, safe⟩ := Host.safe_of_target found
    have walked := Session.forEachChunk_walked job.writer { total := visit.tally.bytes } ready
      (onData regular) positive
    dsimp only at finished
    have content := treat_content found
    rw [writesOf_of_target job found, List.flatMap_map, List.flatMap_id'] at content
    split at finished
    · rename_i complete
      cases finished
      constructor
      · rfl
      · rcases (Safety.destination_ok safe).2.2.2 with file | directory
        · exact file
        · simp [MemberInfo.isDirectory, directory] at regular
      · exact ⟨relative, safe⟩
      · have kept := (writer_takes (walked.taken complete)).1
        rw [List.append_nil] at kept
        exact (congrArg List.reverse kept).trans (List.reverse_reverse _)
      · exact ⟨location, ready, found, content⟩
    · cases finished
  · cases finished

end UnpackJob

def Host.archive (host : Host) : List Member :=
  match host.decoders with
  | some script :: _ => members script.headers
  | _ => []

section

variable {path output : Path} {options : UnpackOptions} {observer : Observer} {host : Host}
  {visits : List Visit} {result : Except UnpackError Tally × Host}

theorem Unpacks.accounted (unpacks : Unpacks path output options observer host visits result) :
    ∃ totals, Host.Told 0 host result.2 totals ∧
      totals.reports = account 0 (visits.filterMap (options.job output observer).finished?) ∧
      totals.ends = (visits.filterMap (options.job output observer).finished?).length ∧
      ∀ tally, result.1 = .ok tally →
        (options.job output observer).Sums {} visits totals tally := by
  have opening := Reader.openSession_told path options.reader host 0
  cases unpacks with
  | refused refused =>
      rw [refused] at opening
      refine ⟨{}, opening, rfl, rfl, ?_⟩
      intro tally ok
      cases ok
  | obstructed opened =>
      rw [opened] at opening
      refine ⟨{}, opening.trans (Session.close_told ..), rfl, rfl, ?_⟩
      intro tally ok
      cases ok
  | @ran session between made _ final opened making goes =>
      obtain ⟨_, _, _, _, _, start⟩ := Reader.openSession_opened opened
      rw [opened] at opening
      obtain ⟨totals, accounted⟩ := goes.accounted (.inl start)
      have began : Host.Told 0 host final.host totals := opening.plain_first accounted.told
      refine ⟨totals, began.plain_last (final.session.close_told ..), accounted.reports,
        accounted.ends, accounted.sums⟩

theorem Unpacks.visited (unpacks : Unpacks path output options observer host visits result) :
    visits.map Visit.member <+: host.archive ∧
      ∀ visit ∈ visits, ∀ file,
        (options.job output observer).finished? visit = some file →
          file.Of (options.job output observer) options.reader.normalized.chunkSize visit := by
  cases unpacks with
  | refused => exact ⟨List.nil_prefix, by simp⟩
  | obstructed => exact ⟨List.nil_prefix, by simp⟩
  | @ran session between made _ final opened making goes =>
      obtain ⟨script, later, decoders, headers, setup, _⟩ := Reader.openSession_opened opened
      constructor
      · simp only [Host.archive, decoders]
        rw [← headers]
        exact goes.members
      · intro visit member file finished
        obtain ⟨same, onData⟩ := goes.visited visit member
        have chunkSize : visit.session.setup.options.chunkSize =
            options.reader.normalized.chunkSize := by rw [same, setup]
        rw [← chunkSize]
        apply UnpackJob.finished?_of onData _ finished
        rw [chunkSize]
        exact options.reader.chunkSize_normalized_pos

theorem Unpacks.listed (unpacks : Unpacks path output options observer host visits result)
    {tally : Tally} (ok : result.1 = .ok tally) (readerOptions : ReaderOptions) :
    ∃ listing, (Listing.ofArchive path readerOptions host).1 = .ok listing ∧
      listing.members = visits.map Visit.info := by
  cases unpacks with
  | refused => cases ok
  | obstructed => cases ok
  | @ran session between made _ final opened making goes =>
      obtain ⟨script, opens, _⟩ := Reader.opens_of_opened opened
      obtain ⟨_, _, decoders, headers, _, start⟩ := Reader.openSession_opened opened
      obtain ⟨_, next⟩ := opens.next
      cases next.symm.trans decoders
      have all := goes.readable (.inl start) ok
      rw [headers] at all
      exact opens.listing all readerOptions

end

/-- How the accounts of an unpack agree. However it ends, the reports are of the files that are
finished, in the order of the archive and each made once, with the name that the archive gives and
with the bytes of all files so far, which are all bytes that have been read by then. If it gets
through, the archive can be listed, and each member listed is in the tally once. -/
theorem unpackArchive_accounts (path output : Path) (options : UnpackOptions)
    (observer : Observer) (host : Host) :
    let ran := unpackArchive path output options observer host
    let job := options.job output observer
    let visits := unpackVisits path output options observer host
    let finished := visits.filterMap job.finished?
    ∃ records, host.Adds ran.2 records ∧
      let reports := records.filterMap Record.report?
      (visits.map Visit.member <+: host.archive ∧
        (∀ visit ∈ visits, ∀ file, job.finished? visit = some file →
          file.Of job options.reader.normalized.chunkSize visit) ∧
        reports = account 0 finished ∧ reports.length = records.countP Record.isEnd ∧
        (reports.map Prod.snd).Pairwise (· ≤ ·) ∧
        ∀ early name total late, records = early ++ .progress name total :: late →
          total = (early.filterMap Record.chunk?).sum) ∧
      ∀ tally, ran.1 = .ok tally → ∀ readerOptions, ∃ listing,
        (Listing.ofArchive path readerOptions host).1 = .ok listing ∧
        listing.members = visits.map Visit.info ∧
        tally.files + tally.directories + tally.skipped = listing.members.length ∧
        tally.directories = listing.members.countP MemberInfo.isSafeDirectory ∧
        tally.skipped = records.countP Record.isSkip ∧
        tally.files = reports.length ∧
        tally.bytes = (finished.map Finished.size).sum := by
  intro ran job visits finished
  have unpacks := unpackArchive_unpacks path output options observer host
  obtain ⟨totals, ⟨records, adds, rfl, timely⟩, reports, ends, sums⟩ := unpacks.accounted
  obtain ⟨order, complete⟩ := unpacks.visited
  have told : records.filterMap Record.report? = account 0 finished := reports
  refine ⟨records, adds, ⟨order, complete, told, ?_, ?_, ?_⟩, ?_⟩
  · rw [told, length_account]
    exact ends.symm
  · rw [told]
    exact account_sorted 0 finished
  · intro early name total late split
    simpa using timely early name total late split
  · intro tally ok readerOptions
    obtain ⟨listing, listed, same⟩ := unpacks.listed ok readerOptions
    have counted := sums tally ok
    have files : tally.files = finished.length := by simpa using counted.files
    have directories : tally.directories = visits.countP (·.info.isSafeDirectory) := by
      simpa using counted.directories
    have skipped : tally.skipped = records.countP Record.isSkip :=
      counted.skipped.trans (Nat.zero_add _)
    have bytes : tally.bytes = (finished.map Finished.size).sum := by
      rw [counted.bytes, counted.sizes, Nat.zero_add]
    refine ⟨listing, listed, same, ?_, ?_, skipped, ?_, bytes⟩
    · rw [files, directories, skipped, same, List.length_map]
      exact counted.once
    · rw [same, List.countP_map]
      exact directories
    · rw [told, length_account]
      exact files

/-- A directory, a file of two bytes, and a file that would climb out of the output directory. -/
theorem one_of_each_accounted :
    let archive : Path := [0x78]
    let output : Path := [0x6F]
    let header (name : Name) (mode : Nat) : Header := ⟨some name, none, 2, true, mode⟩
    let script : Script :=
      { headers := [{ header := some (header [0x64] 0o040755) },
          { header := some (header [0x61] 0o100644), data := [{ serving := .content [1, 2] }] },
          { header := some (header [0x2E, 0x2E, 0x2F, 0x62] 0o100644) }] }
    let host : Host := { decoders := [some script], tree := { entries := [(archive, .file [0])] } }
    let ran := unpackArchive archive output {} (fun _ _ _ => {}) host
    ran.1 = .ok { files := 1, directories := 1, skipped := 1, bytes := 2 } ∧
      ran.2.journal.toList.filterMap Record.report? = [("a", 2)] ∧
      ran.2.journal.toList.countP Record.isSkip = 1 ∧
      ∃ listing, (Listing.ofArchive archive {} host).1 = .ok listing ∧
        listing.members.length = 3 ∧ listing.members.countP MemberInfo.isSafeDirectory = 1 := by
  intro archive output header script host ran
  have fine : ran.1 = .ok { files := 1, directories := 1, skipped := 1, bytes := 2 } := by cbv
  obtain ⟨records, adds, _, accounts⟩ :=
    unpackArchive_accounts archive output {} (fun _ _ _ => {}) host
  obtain ⟨listing, listed, _, once, directories, skipped, _, _⟩ := accounts _ fine {}
  have all : ran.2.journal.toList = records := adds
  have reports : ran.2.journal.toList.filterMap Record.report? = [("a", 2)] := by cbv
  rw [← all] at skipped
  exact ⟨fine, reports, skipped.symm, listing, listed, once.symm, directories.symm⟩

end ArchiveTraversal
