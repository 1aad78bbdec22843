import ArchiveTraversal.Proofs.Decoder.Yield
import ArchiveTraversal.Proofs.FileTree.Content
import ArchiveTraversal.Proofs.Unpack.PassedOver
import ArchiveTraversal.Proofs.Unpack.Progress

/-!
The consumers of a member's data agree: the loop that drains it chunk by chunk, the copy to a sink,
and the unpack that writes it to a file. All of them come to what the member yields, and to the one
failure that there may be after it; the unpack moreover reports just so many bytes. Sessions agree
however they have come to the member, so an unpack, which has read all members before it, agrees
with a session that has not.
-/

namespace ArchiveTraversal

open Decoder

namespace Session

/-- Draining the session and copying from it to a sink that takes everything give this content, and
then this failure if there is one. -/
structure Gives (session : Session) (host : Host) (content : Bytes)
    (failure : Option ArchiveError) : Prop where
  drained : (session.drain host).value.1.flatten = content ∧
    (session.drain host).value.2 = failure
  copied : ∀ (State : Type) (sink : Sink State) (room : State → Option Nat) (refusal : IoError),
    sink.HasRoom room refusal → ∀ state, room state = none →
      let copied := session.copyTo sink.recording (state, []) host
      copied.value.2.2.reverse.flatten = content ∧
        (failure = none → copied.value.1 = .ok content.length) ∧
        ∀ error, failure = some error → copied.value.1 = .error (.archive error)

variable {setup : Setup} {number otherNumber : Nat} {item : HeaderItem} {header : Header}
  {session one other : Session}

theorem StandsOn.yields (stands : one.StandsOn setup number item header)
    (standsToo : other.StandsOn setup otherNumber item header) :
    other.yield = one.yield ∧ other.failure? = one.failure? := by
  apply yields_congr
  · rw [path, path, stands.setup, standsToo.setup]
  · exact standsToo.current.trans stands.current.symm
  · exact standsToo.data.trans stands.data.symm
  · rw [stands.setup, standsToo.setup]

theorem StandsOn.gives (stands : session.StandsOn setup number item header)
    (positive : 0 < setup.options.chunkSize) (host : Host) :
    session.Gives host session.yield session.failure? := by
  rw [← stands.setup] at positive
  constructor
  · exact drain_yields stands.cursor positive host
  · intro State sink room refusal hasRoom state endless copied
    have delivered := copyTo_delivers stands.cursor positive hasRoom state host
    rw [endless, Sink.delivery_of_fits (Sink.fits_none _)] at delivered
    obtain ⟨result, bytes⟩ := Prod.mk.inj delivered
    refine ⟨bytes, fun whole => ?_, fun error cut => ?_⟩
    · rw [whole] at result
      exact result
    · rw [cut] at result
      exact result

end Session

namespace Host

/-- The member of a number is there for sessions to come to. All that do, here or where the archive
is the same, stand on this member, and it gives them this content and this failure. -/
def Offers (host : Host) (path : Path) (options : ReaderOptions) (index : Nat) (info : MemberInfo)
    (content : Bytes) (failure : Option ArchiveError) : Prop :=
  (∃ session after, Arrives path options host index session after) ∧
    ∀ fresh session after, fresh.decoders.head? = host.decoders.head? →
      Arrives path options fresh index session after →
        session.entry.map Header.info = some info ∧ session.Gives after content failure

/-- The path of a member leads to a file with this content. -/
def Holds (host : Host) (output : Path) (info : MemberInfo) (content : Bytes) : Prop :=
  ∃ relative, Safety.destination info = .ok relative ∧
    host.tree.metadata (output.join relative) = .ok (.file content)

theorem Holds.unique {host : Host} {output : Path} {info : MemberInfo} {content other : Bytes}
    (holds : host.Holds output info content) (holdsToo : host.Holds output info other) :
    other = content := by
  obtain ⟨_, safe, file⟩ := holds
  obtain ⟨_, safeToo, fileToo⟩ := holdsToo
  cases safe.symm.trans safeToo
  cases file.symm.trans fileToo
  rfl

end Host

namespace UnpackJob

variable {job : UnpackJob} {session : Session} {host : Host} {visit : Visit} {location : Location}
  {ready : Host}

theorem finished?_complete {file : Finished} (finished : job.finished? visit = some file) :
    ∃ location ready, visit.host.target? job.output visit.info = some (location, ready) ∧
      (job.walk visit.tally visit.session ready).value.1 = .complete := by
  unfold finished? at finished
  split at finished
  · rename_i location ready found
    dsimp only at finished
    split at finished
    · rename_i complete
      exact ⟨location, ready, found, complete⟩
    · cases finished
  · cases finished

theorem treat_holds (found : visit.host.target? job.output visit.info = some (location, ready)) :
    (job.treat visit).host.Holds job.output visit.info
      (job.walk visit.tally visit.session ready).value.2.content := by
  obtain ⟨tree, relative, safe, created⟩ := Host.created_of_prepare (Host.prepare_of_target found)
  refine ⟨relative, safe, ?_⟩
  rw [treat_content found, writesOf_of_target job found, List.flatMap_map, List.flatMap_id']
  exact FileTree.metadata_of_filled created _

/-- A member that is read to its end is reported, and that is the last thing done about it. -/
theorem treat_reports (found : visit.host.target? job.output visit.info = some (location, ready))
    (complete : (job.walk visit.tally visit.session ready).value.1 = .complete) :
    ((job.treat visit).value, (job.treat visit).host) =
      job.report visit.info.path (job.counted visit.tally visit.session ready)
        ((job.filled location visit.tally visit.session ready).event
          (.memberWritten visit.info.path)) := by
  have fills := treat_fills job found
  generalize job.treat visit = outcome at *
  cases fills with
  | unreadable ends => cases ends.symm.trans complete
  | stopped ends => cases ends.symm.trans complete
  | complete => rfl

theorem treat_stopped {error : UnpackError}
    (found : visit.host.target? job.output visit.info = some (location, ready))
    (stopped : (job.walk visit.tally visit.session ready).value.1 = .stopped error) :
    (job.treat visit).value = .error error ∧ (job.treat visit).host.cancelled =
      (job.walk visit.tally visit.session ready).host.cancelled := by
  have fills := treat_fills job found
  generalize job.treat visit = outcome at *
  cases fills with
  | unreadable ends => cases ends.symm.trans stopped
  | stopped ends =>
      cases ends.symm.trans stopped
      exact ⟨rfl, rfl⟩
  | complete ends => cases ends.symm.trans stopped

theorem walk_content (job : UnpackJob) (tally : Tally) (onData : session.OnData)
    (positive : 0 < session.setup.options.chunkSize)
    (unstopped : ∀ cause, (job.walk tally session host).value.1 ≠ .stopped cause) :
    (job.walk tally session host).value.2.content = session.yield := by
  have walked :=
    Session.forEachChunk_walked job.writer { total := tally.bytes } host onData positive
  rw [← walk] at walked
  rw [onData.yield_eq, ← flatten_chunks positive]
  generalize (job.walk tally session host).value = value at *
  cases walked with
  | complete taken => exact (writer_content taken).1
  | unreadable _ taken => exact (writer_content taken).1
  | halted => exact absurd rfl (unstopped _)
  | refused => exact absurd rfl (unstopped _)

theorem walk_failure (job : UnpackJob) (tally : Tally) (onData : session.OnData)
    (positive : 0 < session.setup.options.chunkSize) (host : Host) :
    ((job.walk tally session host).value.1 = .complete → session.failure? = none) ∧
      ∀ error, (job.walk tally session host).value.1 = .unreadable error →
        session.failure? = some error := by
  rw [onData.failure?_eq]
  exact onData.forEachChunk_fault job.writer { total := tally.bytes } positive host

/-- Without a limit only the flag stops a walk, and it is up then. -/
theorem walk_stopped {written : Written} {error : UnpackError} (free : job.sizeLimit = none)
    (stopped : (session.forEachChunk job.writer written host).value.1 = .stopped error) :
    error = .cancelled ∧ (session.forEachChunk job.writer written host).host.cancelled = true := by
  fun_induction Session.forEachChunk job.writer written session host with
  | case1 written session host cause halts =>
      cases stopped
      simp only [writer] at halts
      split at halts
      · -- The host that the flag is asked of is the one that the walk leaves.
        rename_i up
        cases halts
        exact ⟨rfl, up⟩
      · cases halts
  | case2 => cases stopped
  | case3 => cases stopped
  | case4 written session host goesOn read byte more filled last cause refuses =>
      obtain ⟨_, bound, limited, _⟩ := writer_refuses refuses
      cases free.symm.trans limited
  | case5 _ _ _ _ _ _ _ _ _ _ ih => exact ih stopped

theorem treat_error_iff
    (found : visit.host.target? job.output visit.info = some (location, ready))
    (onData : visit.session.OnData) (positive : 0 < visit.session.setup.options.chunkSize)
    (unstopped : ∀ cause, (job.walk visit.tally visit.session ready).value.1 ≠ .stopped cause)
    (error : ArchiveError) :
    (job.treat visit).value = .error (.archive error) ↔ visit.session.failure? = some error := by
  obtain ⟨sound, broken⟩ := walk_failure job visit.tally onData positive ready
  have fills := treat_fills job found
  generalize job.treat visit = outcome at *
  cases fills with
  | unreadable ends =>
      rw [broken _ ends]
      simp
  | stopped ends => exact absurd ends (unstopped _)
  | complete ends =>
      rw [sound ends]
      dsimp only [report]
      split <;> simp

theorem filled_reports
    (found : visit.host.target? job.output visit.info = some (location, ready)) :
    (job.filled location visit.tally visit.session ready).reports = visit.host.reports := by
  have prepared := (visit.host.prepare_rearranged job.output visit.info).murmurs
  rw [Host.prepare_of_target found] at prepared
  have walked :=
    visit.session.forEachChunk_murmurs job.writer { total := visit.tally.bytes } ready
  exact (prepared.trans walked).reports

theorem treat_reported (onData : visit.info.isDirectory = false → visit.session.OnData)
    (positive : 0 < visit.session.setup.options.chunkSize)
    (reported : (job.treat visit).host.reports ≠ visit.host.reports) :
    visit.session.failure? = none ∧ ∃ tally told,
      ((job.treat visit).value, (job.treat visit).host) =
        job.report visit.info.path tally told ∧
      told.Holds job.output visit.info visit.session.yield ∧
      told.reports = visit.host.reports ∧
      tally.bytes = visit.tally.bytes + visit.session.yield.length := by
  obtain ⟨_, accounted⟩ := treat_accounted job visit onData
  cases finished : job.finished? visit with
  | none =>
      -- Where no file is finished nothing is reported.
      have none := accounted.reported
      rw [List.filterMap_cons_none finished, List.filterMap_nil, account, List.append_nil] at none
      exact absurd none reported
  | some file =>
      obtain ⟨location, ready, found, complete⟩ := finished?_complete finished
      have data := onData (treat_of_target job found).1
      have unstopped : ∀ cause,
          (job.walk visit.tally visit.session ready).value.1 ≠ .stopped cause := by
        simp [complete]
      have content := job.walk_content visit.tally data positive unstopped
      have reports := treat_reports found complete
      have holds := treat_holds found
      have tree : (job.treat visit).host.tree = _ := congrArg (fun made => made.2.tree) reports
      rw [content, Host.Holds, tree, report_tree] at holds
      refine ⟨(job.walk_failure visit.tally data positive ready).1 complete, _, _, reports, holds,
        (Host.event_murmurs ..).reports.trans (filled_reports found), ?_⟩
      rw [← content]
      exact job.walk_total visit.tally visit.session ready

end UnpackJob

section

variable {path output : Path} {options : UnpackOptions} {observer : Observer} {host : Host}
  {visits : List Visit} {result : Except UnpackError Tally × Host} {index : Nat} {visit : Visit}

theorem Unpacks.offers (unpacks : Unpacks path output options observer host visits result)
    (there : visits[index]? = some visit) :
    host.Offers path options.reader index visit.info visit.session.yield
      visit.session.failure? := by
  obtain ⟨script, item, header, opens, leads, info, stands⟩ := unpacks.standsOn there
  refine ⟨opens.arrives leads options.reader, ?_⟩
  intro fresh session after same arrives
  obtain ⟨other, _, _, opensToo, leadsToo, standsToo⟩ := arrives.standsOn
  -- Both read the same script, so the same headers lead to both.
  obtain ⟨_, next⟩ := opens.next
  obtain ⟨_, nextToo⟩ := opensToo.next
  rw [next, nextToo, List.head?_cons, List.head?_cons] at same
  cases same
  obtain ⟨rfl, rfl⟩ := leads.unique leadsToo
  obtain ⟨yields, fails⟩ := stands.yields standsToo
  have gives := standsToo.gives options.reader.chunkSize_normalized_pos after
  rw [yields, fails] at gives
  refine ⟨?_, gives⟩
  rw [Session.entry, standsToo.cursor]
  dsimp only
  rw [standsToo.current, info]
  rfl

theorem Unpacks.unstopped (unpacks : Unpacks path output options observer host visits result)
    (free : options.sizeLimit = none)
    (uncancelled : result.1 = .error .cancelled → result.2.cancelled = false)
    (member : visit ∈ visits) {location : Location} {ready : Host}
    (found : visit.host.target? output visit.info = some (location, ready)) :
    ∀ cause, ((options.job output observer).walk visit.tally visit.session ready).value.1 ≠
      .stopped cause := by
  intro cause stopped
  obtain ⟨rfl, up⟩ := UnpackJob.walk_stopped free stopped
  obtain ⟨failed, same⟩ := UnpackJob.treat_stopped found stopped
  obtain ⟨value, flag⟩ := unpacks.broken member failed
  cases (uncancelled value).symm.trans (flag.trans (same.trans up))

end

/-- Whoever reads a member comes by the same. When an unpack tells of a member, the file at its path
holds just what any session with the same options is drained of that has come to the member, however
it has come there, and what it copies to a sink that takes everything. Neither fails, and the total
that is told has grown by the number of these bytes since the last report. When an unpack that has
no limit, and that the flag has not stopped, has opened the file of a member, the file is left with
what the sessions have of it; and if one of the three fails all of them do, with the same error after
the same bytes. -/
theorem consumers_agree (path output : Path) (options : UnpackOptions) (observer : Observer)
    (host : Host) :
    let job := options.job output observer
    let visits := unpackVisits path output options observer host
    let ran := unpackArchive path output options observer host
    ∀ index visit, visits[index]? = some visit →
      let treated := job.treat visit
      (treated.host.reports ≠ visit.host.reports →
        ∃ tally told content earlier,
          (treated.value, treated.host) = job.report visit.info.path tally told ∧
          told.Holds output visit.info content ∧
          host.Offers path options.reader index visit.info content none ∧
          told.reports = host.reports ++ earlier ∧
          tally.bytes = lastTotal 0 earlier + content.length ∧
          treated.host.reports <+: ran.2.reports) ∧
      (options.sizeLimit = none → (ran.1 = .error .cancelled → ran.2.cancelled = false) →
        (visit.host.target? output visit.info).isSome →
          ∃ content failure, treated.host.Holds output visit.info content ∧
            host.Offers path options.reader index visit.info content failure ∧
            ∀ error, (treated.value = .error (.archive error) ↔ failure = some error) ∧
              (failure = some error → ran.1 = .error (.archive error))) := by
  intro job visits ran index visit there treated
  have unpacks := unpackArchive_unpacks path output options observer host
  have offers := unpacks.offers there
  obtain ⟨_, _, _, _, _, info, stands⟩ := unpacks.standsOn there
  have positive : 0 < visit.session.setup.options.chunkSize := by
    rw [stands.setup]
    exact options.reader.chunkSize_normalized_pos
  have onData : visit.info.isDirectory = false → visit.session.OnData :=
    fun regular => stands.onData (info ▸ regular)
  constructor
  · intro reported
    obtain ⟨total, before, among⟩ := unpacks.reported there
    obtain ⟨whole, tally, told, reports, holds, same, counted⟩ :=
      UnpackJob.treat_reported onData positive reported
    rw [whole] at offers
    exact ⟨tally, told, _, _, reports, holds, offers, same.trans before,
      counted.trans (congrArg (· + _) total), among⟩
  · intro free uncancelled opened
    obtain ⟨⟨location, ready⟩, found⟩ := Option.isSome_iff_exists.mp opened
    have data := onData (UnpackJob.treat_of_target job found).1
    have member := List.mem_of_getElem? there
    -- Neither the limit nor the flag stops the walk, so it comes to the end of what there is.
    have unstopped := unpacks.unstopped free uncancelled member found
    have holds : treated.host.Holds output visit.info _ := UnpackJob.treat_holds found
    rw [job.walk_content visit.tally data positive unstopped] at holds
    refine ⟨_, _, holds, offers, fun error => ?_⟩
    have blamed := UnpackJob.treat_error_iff found data positive unstopped error
    exact ⟨blamed, fun failed => (unpacks.broken member (blamed.mpr failed)).1⟩

/-- The first of two files comes in an answer longer than was asked for, and more; the second gives
out after three bytes. Sessions get of both what the unpack leaves on disk. -/
theorem torn_second_file_agrees :
    let archive : Path := [0x78]
    let output : Path := [0x6F]
    let header (name : Name) : Header := ⟨some name, none, 3, true, 0o100644⟩
    let first := (header [0x61]).info
    let second := (header [0x62]).info
    let script : Script :=
      { headers :=
          [{ header := some (header [0x61]),
             data := [{ serving := .raw 5 [1, 2, 3, 4, 5] }, { serving := .content [9] }] },
            { header := some (header [0x62]),
              data := [{ serving := .content [6, 7, 8] }, { serving := .raw (-30) [] }] }] }
    let host : Host := { decoders := [some script], tree := { entries := [(archive, .file [0])] } }
    let pairs : ReaderOptions := { chunkSize := 2 }
    let lost : ArchiveError := .reading archive .data (.status (-30))
    let ran := unpackArchive archive output ⟨none, pairs⟩ (fun _ _ _ => {}) host
    ran.1 = .error (.archive lost) ∧ ran.2.reports = [("a", 3)] ∧
      host.Offers archive pairs 0 first [1, 2, 9] none ∧
      host.Offers archive pairs 1 second [6, 7, 8] (some lost) := by
  intro archive output header first second script host pairs lost ran
  let job := UnpackOptions.job ⟨none, pairs⟩ output fun _ _ _ => {}
  let visits := unpackVisits archive output ⟨none, pairs⟩ (fun _ _ _ => {}) host
  have agree := consumers_agree archive output ⟨none, pairs⟩ (fun _ _ _ => {}) host
  have torn : ran.1 = .error (.archive lost) := by cbv
  refine ⟨torn, by cbv, ?_, ?_⟩
  · have met : (visits[0]?.map fun visit => (visit.info, visit.host.reports,
        (job.treat visit).host.reports,
        (job.treat visit).host.tree.metadata (output.join [0x61]))) =
        some (first, [], [("a", 3)], .ok (.file [1, 2, 9])) := by
      unfold visits job first
      cbv
    obtain ⟨visit, there, facts⟩ := Option.map_eq_some_iff.mp met
    simp only [Prod.mk.injEq] at facts
    obtain ⟨is, before, after, file⟩ := facts
    obtain ⟨whole, _⟩ := agree 0 visit there
    have reported : (job.treat visit).host.reports ≠ visit.host.reports := by
      rw [before, after]
      exact List.cons_ne_nil _ _
    obtain ⟨_, told, content, _, made, holds, offers, _⟩ := whole reported
    have tree : (job.treat visit).host.tree = _ := congrArg (fun made => made.2.tree) made
    rw [tree, UnpackJob.report_tree] at file
    rw [is] at holds offers
    have held : told.Holds output first [1, 2, 9] := ⟨[0x61], by cbv, file⟩
    rwa [holds.unique held]
  · have met : (visits[1]?.map fun visit => (visit.info,
        (visit.host.target? output visit.info).isSome, (job.treat visit).value,
        (job.treat visit).host.tree.metadata (output.join [0x62]))) =
        some (second, true, .error (.archive lost), .ok (.file [6, 7, 8])) := by
      unfold visits job second lost
      cbv
    obtain ⟨visit, there, facts⟩ := Option.map_eq_some_iff.mp met
    simp only [Prod.mk.injEq] at facts
    obtain ⟨is, opened, failed, file⟩ := facts
    obtain ⟨_, all⟩ := agree 1 visit there
    have uncancelled : ran.1 = .error .cancelled → ran.2.cancelled = false := by
      intro cancelled
      cases torn.symm.trans cancelled
    obtain ⟨content, failure, holds, offers, ends⟩ := all rfl uncancelled opened
    rw [(ends lost).1.mp failed, is] at offers
    rw [is] at holds
    have held : (job.treat visit).host.Holds output second [6, 7, 8] := ⟨[0x62], by cbv, file⟩
    rwa [holds.unique held]

end ArchiveTraversal
