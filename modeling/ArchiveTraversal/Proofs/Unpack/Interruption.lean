import Mathlib
import ArchiveTraversal.Proofs.Decoder.Cut
import ArchiveTraversal.Proofs.Journal
import ArchiveTraversal.Proofs.Unpack.Steps

/-!
What an unpack leaves behind when it breaks off because of the archive or the size limit. It is what
a run on the members before the break leaves behind, and if the break is inside a member, what there
is of that member's file: the chunks read before.
-/

namespace ArchiveTraversal

open Decoder

namespace UnpackJob

variable (whole left : List HeaderItem) (job : UnpackJob) (tally : Tally) (session : Session)
  (host : Host)

theorem fillFile_cut (name : String) (location : Location) :
    job.fillFile name location tally (session.cut whole left) host =
      (job.fillFile name location tally session host).cut whole left := by
  unfold fillFile
  simp only [Session.forEachChunk_cut]
  dsimp only [Outcome.cut]
  split <;> rfl

theorem unpackFile_cut (name : String) (destination : Path) :
    job.unpackFile name destination tally (session.cut whole left) host =
      (job.unpackFile name destination tally session host).cut whole left := by
  unfold unpackFile
  simp only [fillFile_cut]
  split
  · rfl
  · split
    · rfl
    · split <;> rfl

theorem unpackMember_cut (info : MemberInfo) :
    job.unpackMember info tally (session.cut whole left) host =
      (job.unpackMember info tally session host).cut whole left := by
  unfold unpackMember
  simp only [unpackFile_cut]
  split
  · rfl
  · split
    · rfl
    · split
      · split <;> rfl
      · rfl

theorem unpackMembers_step (goesOn : host.cancelled = false) :
    job.unpackMembers tally session host =
      let moved := session.advance host
      match moved.value with
      | .error error => ⟨.error (.archive error), moved.session, moved.host⟩
      | .ok none => ⟨.ok tally, moved.session, moved.host⟩
      | .ok (some header) =>
          let done := job.unpackMember header.info tally moved.session moved.host
          match done.value with
          | .error error => ⟨.error error, done.session, done.host⟩
          | .ok tally => job.unpackMembers tally done.session done.host := by
  rw [unpackMembers]
  simp only [goesOn, Bool.false_eq_true, ↓reduceIte]
  obtain ⟨answer, moved, after⟩ := session.advance host
  cases answer with
  | error error => rfl
  | ok next =>
      cases next with
      | none => rfl
      | some header => rfl

end UnpackJob

theorem Host.clearFiles_congr {one after : Host} {paths : List Path}
    {result : Except IoError Unit} (other : Host) (same : other.tree = one.tree)
    (cleared : one.clearFiles paths = (result, after)) :
    ∃ again, other.clearFiles paths = (result, again) ∧ again.tree = after.tree := by
  induction paths generalizing one other with
  | nil =>
      cases cleared
      exact ⟨other, rfl, same⟩
  | cons path deeper ih =>
      have told : ∀ host : Host, (host.event (.fileReplaced path)).tree = host.tree := fun _ => rfl
      simp only [clearFiles, told, same] at cleared ⊢
      cases blocks : one.tree.isFile path with
      | false =>
          simp only [blocks, Bool.false_eq_true, ↓reduceIte] at cleared ⊢
          exact ih other same cleared
      | true =>
          simp only [blocks, ↓reduceIte] at cleared ⊢
          cases removed : one.tree.removeFile path with
          | error error =>
              simp only [removed] at cleared ⊢
              cases cleared
              exact ⟨_, rfl, same⟩
          | ok tree =>
              simp only [removed] at cleared ⊢
              apply ih _ _ cleared
              rfl

theorem Host.clearFileAncestors_congr {host after : Host} {output relative : Path}
    {result : Except IoError Unit}
    (cleared : host.clearFileAncestors output relative = (result, after)) :
    ∃ again, ({ tree := host.tree } : Host).clearFileAncestors output relative = (result, again) ∧
      again.tree = after.tree := by
  apply Host.clearFiles_congr _ _ cleared
  rfl

/-- Why there is only so much of a member: a read failed after all chunks that there are, or the
chunk after those seen would have taken the run past its limit, as none of those did. -/
inductive Interrupted (path : Path) (all : List Bytes) (limit : Option Nat) (before : Nat)
    (seen : List Bytes) : UnpackError → Prop
  | unreadable (reason : Reason) (everything : seen = all) :
      Interrupted path all limit before seen (.archive (.reading path .data reason))
  | exceeded {chunk : Bytes} {rest : List Bytes} {bound : Nat} (split : all = seen ++ chunk :: rest)
      (limited : limit = some bound) (fits : seen ≠ [] → before + seen.flatten.length ≤ bound)
      (exceeds : bound < before + seen.flatten.length + chunk.length) :
      Interrupted path all limit before seen
        (.sizeLimitExceeded (before + seen.flatten.length + chunk.length) bound)

/-- How the tree changes by a file member of which only some content has arrived: its ancestors are
cleared of files and made, and the file itself, or the one that a link there leads to, is made anew
with that content. -/
def Torn (output : Path) (info : MemberInfo) (content : Bytes) (before after : FileTree) : Prop :=
  ∃ relative cleared made location opened,
    Safety.destination info = .ok relative ∧ info.isDirectory = false ∧
    ({ tree := before } : Host).clearFileAncestors output relative = (.ok (), cleared) ∧
    cleared.tree.makeDirectories ((output.join relative).parent?.getD []) = (.ok (), made) ∧
    made.createFile (output.join relative) = .ok (location, opened) ∧
    after = opened.put location (.file content)

/-- What there is when a run breaks off: what its finished members have made and, when the break is
inside the next member, as much of that one as had been read. -/
inductive BreaksOff (setup : Setup) (job : UnpackJob) (next : Option HeaderItem) (count : Tally)
    (finished : FileTree) : UnpackError → FileTree → Prop
  | header (reason : Reason) :
      BreaksOff setup job next count finished (.archive (.reading setup.path .header reason))
        finished
  | member {item : HeaderItem} {header : Header} {seen : List Bytes} {error : UnpackError}
      {after : FileTree} (selected : next = some item) (given : item.header = some header)
      (interrupted : Interrupted setup.path (chunks setup.options.chunkSize item.data)
        job.sizeLimit count.bytes seen error)
      (torn : Torn job.output header.info seen.flatten finished after) :
      BreaksOff setup job next count finished error after

namespace UnpackJob

variable {job : UnpackJob} {tally : Tally} {session : Session} {host : Host} {error : UnpackError}

theorem writer_within {written last : Written} {seen : List Bytes} {bound : Nat}
    (limited : job.sizeLimit = some bound) (taken : job.writer.Takes written seen last)
    (some : seen ≠ []) : last.total ≤ bound := by
  induction taken with
  | nil => exact absurd rfl some
  | @cons written next last chunk rest accepted taken ih =>
      cases rest with
      | cons other later => exact ih (by simp)
      | nil =>
          cases taken
          simp only [writer, limited, Safety.checkSize] at accepted
          split at accepted
          · cases accepted
          · rename_i within
            cases accepted
            split at within
            · cases within
            · rename_i fits
              exact Nat.not_lt.mp fits

theorem writer_refuses {written last : Written} {chunk : Bytes}
    (refuses : job.writer.visit written chunk = (last, some error)) :
    last = written ∧ ∃ bound, job.sizeLimit = some bound ∧ bound < written.total + chunk.length ∧
      error = .sizeLimitExceeded (written.total + chunk.length) bound := by
  simp only [writer, Safety.checkSize] at refuses
  cases limited : job.sizeLimit with
  | none => simp [limited] at refuses
  | some bound =>
      by_cases exceeds : bound < written.total + chunk.length
      · simp only [limited, gt_iff_lt, exceeds, ↓reduceIte] at refuses
        cases refuses
        exact ⟨rfl, bound, rfl, exceeds, rfl⟩
      · simp [limited, exceeds] at refuses

theorem fillFile_interrupted {name : String} {location : Location} (onData : session.OnData)
    (positive : 0 < session.setup.options.chunkSize)
    (failed : (job.fillFile name location tally session host).value = .error error)
    (wanted : error ≠ .cancelled) :
    host.Murmurs (job.fillFile name location tally session host).host ∧
      ∃ seen, Interrupted session.setup.path
          (chunks session.setup.options.chunkSize session.handle.data) job.sizeLimit tally.bytes
          seen error ∧
        (job.fillFile name location tally session host).host.tree =
          host.tree.put location (.file seen.flatten) := by
  have walked := Session.forEachChunk_walked job.writer { total := tally.bytes } host onData positive
  have murmurs := session.forEachChunk_murmurs job.writer { total := tally.bytes } host
  have tree := (session.forEachChunk_extends job.writer { total := tally.bytes } host).tree
  have fails := fun cause => @Session.forEachChunk_fails _ _ job.writer { total := tally.bytes }
    session host cause
  unfold fillFile at failed ⊢
  dsimp only at failed ⊢
  generalize session.forEachChunk job.writer { total := tally.bytes } host = outcome at *
  obtain ⟨⟨walk, written⟩, after, final⟩ := outcome
  dsimp only at *
  cases walked with
  | complete taken =>
      -- The observer alone can stop a run after a finished file.
      dsimp only [report] at failed
      split at failed
      · cases failed
      · cases failed
        exact absurd rfl wanted
  | unreadable cause taken =>
      cases failed
      obtain ⟨reason, reading⟩ := fails cause rfl
      rw [reading]
      refine ⟨murmurs, _, .unreadable reason rfl, ?_⟩
      rw [← (writer_content taken).1, ← tree]
      rfl
  | halted split taken halts =>
      cases failed
      simp only [writer] at halts
      split at halts
      · cases halts
        exact absurd rfl wanted
      · cases halts
  | @refused between _ seen rest chunk _ split taken refuses =>
      cases failed
      obtain ⟨kept, bound, limited, exceeds, cause⟩ := writer_refuses refuses
      obtain ⟨content, total⟩ := writer_content taken
      have fits := writer_within limited taken
      rw [total] at exceeds cause fits
      rw [cause, kept]
      refine ⟨murmurs, seen, .exceeded split limited fits exceeds, ?_⟩
      rw [← content, ← tree]
      rfl

theorem unpackMember_interrupted {info : MemberInfo}
    (regular : info.isDirectory = false → session.OnData)
    (positive : 0 < session.setup.options.chunkSize)
    (failed : (job.unpackMember info tally session host).value = .error error)
    (wanted : error ≠ .cancelled) (readable : ∀ cause, error ≠ .io cause) :
    host.Murmurs (job.unpackMember info tally session host).host ∧
      ∃ seen, Interrupted session.setup.path
          (chunks session.setup.options.chunkSize session.handle.data) job.sizeLimit tally.bytes
          seen error ∧
        Torn job.output info seen.flatten host.tree
          (job.unpackMember info tally session host).host.tree := by
  rcases job.unpackMember_cases tally session host info with
    ⟨_, _, ends⟩ | ⟨relative, safe, ⟨_, _, _, ends⟩ | ⟨between, clearing, rest⟩⟩
  · rw [ends] at failed
    cases failed
  · rw [ends] at failed
    cases failed
    exact absurd rfl (readable _)
  rcases rest with ⟨_, ⟨_, _, _, ends⟩ | ⟨_, _, ends⟩⟩ | ⟨is, ends⟩
  · rw [ends] at failed
    cases failed
    exact absurd rfl (readable _)
  · rw [ends] at failed
    cases failed
  rw [ends] at failed ⊢
  rcases job.unpackFile_cases tally session between info.path (job.output.join relative) with
    ⟨_, _, _, ends⟩ | ⟨made, making, ⟨_, ends⟩ | ⟨_, ⟨_, _, ends⟩ | ⟨location, opened, creating, ends⟩⟩⟩
  · rw [ends] at failed
    cases failed
    exact absurd rfl (readable _)
  · rw [ends] at failed
    cases failed
  · rw [ends] at failed
    cases failed
    exact absurd rfl (readable _)
  rw [ends] at failed ⊢
  -- Neither the disk nor the observer is to blame, so it was the data of a file.
  obtain ⟨murmurs, seen, interrupted, tree⟩ := fillFile_interrupted (regular is) positive failed wanted
  have cleared := (host.clearFiles_rearranged (job.output.leadingTo relative.names)).murmurs
  rw [← Host.clearFileAncestors, clearing] at cleared
  refine ⟨cleared.trans murmurs, seen, interrupted, ?_⟩
  obtain ⟨alone, clearing, trees⟩ := Host.clearFileAncestors_congr clearing
  rw [← trees] at making
  exact ⟨relative, alone, made, location, opened, safe, is, clearing, making, creating, tree⟩

theorem fillFile_requests (name : String) (location : Location) :
    (job.fillFile name location tally session host).host.requests = host.requests := by
  have walked := session.forEachChunk_murmurs job.writer { total := tally.bytes } host
  unfold fillFile
  dsimp only
  split
  · exact walked.requests
  · exact walked.requests
  · have written := walked.trans (Host.event_murmurs _ (.memberWritten name))
    unfold report
    exact (Host.raiseIf_murmurs _ _).requests.trans
      ((Host.record_progress_requests ..).trans written.requests)

theorem unpackMember_requests (info : MemberInfo) :
    (job.unpackMember info tally session host).host.requests = host.requests := by
  rcases job.unpackMember_reaches tally session host info with
    ⟨_, _, rearranged, ends⟩ | ⟨_, location, between, rearranged, ends⟩
  · rw [ends]
    exact rearranged.murmurs.requests
  · rw [ends]
    exact (fillFile_requests ..).trans rearranged.murmurs.requests

theorem unpackMembers_cut (whole left : List HeaderItem) {item : HeaderItem} {header : Header}
    {next : Tally} (going : session.Going) (goesOn : host.cancelled = false)
    (movedTo : session.MovedTo item header (session.advance host).session)
    (moved : (session.advance host).value = .ok (some header))
    (done : (job.unpackMember header.info tally (session.advance host).session
      (session.advance host).host).value = .ok next) :
    job.unpackMembers tally (session.cut whole (item :: left)) host =
      job.unpackMembers next
        ((job.unpackMember header.info tally (session.advance host).session
          (session.advance host).host).session.cut whole left)
        (job.unpackMember header.info tally (session.advance host).session
          (session.advance host).host).host := by
  rw [unpackMembers_step _ _ _ _ goesOn, going.advance_cut whole left host movedTo.left]
  simp only [Outcome.cut, moved, unpackMember_cut, done]

theorem unpackMembers_past (job : UnpackJob) (tally : Tally) (whole : List HeaderItem)
    (going : session.Going)
    (goesOn : host.cancelled = false) :
    (job.unpackMembers tally (session.cut whole []) host).value = .ok tally ∧
      (job.unpackMembers tally (session.cut whole []) host).host.tree = host.tree ∧
      (job.unpackMembers tally (session.cut whole []) host).host.reports = host.reports := by
  have goes : (session.cut whole []).Going := going
  have ended := going.advance_past whole host
  rw [unpackMembers_step _ _ _ _ goesOn]
  simp only [ended]
  exact ⟨trivial, ((session.cut whole []).advance_extends host).tree, (goes.advance_journal host).1⟩

/-- A run that breaks off has done all before the break as a run on just those headers would. -/
theorem unpackMembers_interrupted (going : session.Going)
    (positive : 0 < session.setup.options.chunkSize)
    (failed : (job.unpackMembers tally session host).value = .error error)
    (wanted : error ≠ .cancelled) (readable : ∀ cause, error ≠ .io cause) :
    ∃ finished count,
      (job.unpackMembers tally session host).host.requests = host.requests + finished + 1 ∧
      ∀ whole,
        let shorter := job.unpackMembers tally
          (session.cut whole (session.handle.headers.take finished)) host
        shorter.value = .ok count ∧
        (job.unpackMembers tally session host).host.reports = shorter.host.reports ∧
        BreaksOff session.setup job session.handle.headers[finished]? count shorter.host.tree error
          (job.unpackMembers tally session host).host.tree := by
  fun_induction unpackMembers job tally session host with
  | case1 =>
      cases failed
      exact absurd rfl wanted
  | case2 tally session host goesOn advanced cause moved =>
      obtain ⟨reports, requests⟩ := going.advance_journal host
      -- The break is at the header, where the shorter run comes to its end.
      obtain ⟨reason, reading⟩ := Session.advance_fails moved
      cases failed
      rw [reading]
      refine ⟨0, tally, requests, fun whole => ?_⟩
      obtain ⟨value, tree, journal⟩ :=
        job.unpackMembers_past tally whole going (by simpa using goesOn)
      refine ⟨value, reports.trans journal.symm, ?_⟩
      rw [List.take_zero, tree, (session.advance_extends host).tree]
      exact .header reason
  | case3 => cases failed
  | case4 tally session host goesOn advanced header moved member cause broken =>
      obtain ⟨reports, requests⟩ := going.advance_journal host
      obtain ⟨item, movedTo⟩ := Session.movedTo_of_advance moved
      have setup := session.advance_setup host
      cases failed
      -- The break is inside the member, which the shorter run never gets to.
      obtain ⟨murmurs, seen, interrupted, torn⟩ := unpackMember_interrupted movedTo.onData
        (by rw [setup]; exact positive) broken wanted readable
      rw [setup, movedTo.data] at interrupted
      refine ⟨0, tally, murmurs.requests.trans requests, fun whole => ?_⟩
      obtain ⟨value, tree, journal⟩ :=
        job.unpackMembers_past tally whole going (by simpa using goesOn)
      rw [(session.advance_extends host).tree, ← tree] at torn
      refine ⟨value, (murmurs.reports.trans reports).trans journal.symm, ?_⟩
      exact .member (by rw [movedTo.left]; rfl) movedTo.given interrupted torn
  | case5 tally session host goesOn advanced header moved member next done ih =>
      obtain ⟨_, requests⟩ := going.advance_journal host
      obtain ⟨item, movedTo⟩ := Session.movedTo_of_advance moved
      have onMember := unpackMember_onMember movedTo.cursor movedTo.onData done
      have setup := (job.unpackMember_setup tally (session.advance host).session
        (session.advance host).host header.info).trans (session.advance_setup host)
      have headers := job.unpackMember_headers header.info tally (session.advance host).session
        (session.advance host).host
      have further := ih (.inr onMember) (by rw [setup]; exact positive) failed
      rw [headers, setup] at further
      obtain ⟨finished, count, asked, rest⟩ := further
      have earlier : member.host.requests = host.requests + 1 :=
        (unpackMember_requests header.info).trans requests
      -- One header more leads both runs through this member.
      refine ⟨finished + 1, count, ?_, fun whole => ?_⟩
      · rw [asked, earlier]
        omega
      · have same := unpackMembers_cut whole
          ((session.advance host).session.handle.headers.take finished) going
          (by simpa using goesOn) movedTo moved done
        rw [movedTo.left, List.take_succ_cons, List.getElem?_cons_succ, same]
        exact rest whole

end UnpackJob

/-- The archive or the size limit is behind the error, after the archive was opened. -/
def UnpackError.breaksOff : UnpackError → Bool
  | .archive error => error.isReadError
  | .sizeLimitExceeded .. => true
  | _ => false

theorem unpackArchive_opened {path output : Path} {options : UnpackOptions} (observer : Observer)
    {host between : Host} {session : Session} {made : FileTree}
    (opened : (Reader.new path options.reader).openSession host = (.opened session, between))
    (making : between.tree.makeDirectories output = (.ok (), made)) :
    unpackArchive path output options observer host =
      let done := (options.job output observer).unpackMembers {} session
        { between with tree := made }
      (done.value, (done.session.close done.host).2.2) := by
  unfold unpackArchive Host.makeDirectories
  simp only [opened, making]
  rfl

/-- What is left of an unpack that fails because of its archive. If the archive does not open, it is
nothing at all. If the unpack breaks off later, or at its size limit, it is what the same unpack of
the archive without the members that were not finished leaves behind, with the same reports; and if
it breaks off inside a member, that member's file with what had been read of it. -/
theorem unpackArchive_interrupted (path output : Path) (options : UnpackOptions)
    (observer : Observer) (host : Host) :
    let ran := unpackArchive path output options observer host
    (∀ refused reason, ran.1 = .error (.archive (.opening refused reason)) →
      ran.2.tree = host.tree ∧ ran.2.reports = host.reports) ∧
    ∀ error, ran.1 = .error error → error.breaksOff = true →
      ∃ script later finished count, host.decoders = some script :: later ∧
        ran.2.requests = host.requests + finished + 1 ∧
        let shorter := unpackArchive path output options observer
          { host with decoders := some (script.upTo finished) :: later }
        shorter.1 = .ok count ∧ ran.2.reports = shorter.2.reports ∧
        BreaksOff ⟨path, options.reader.normalized⟩ (options.job output observer)
          script.headers[finished]? count shorter.2.tree error ran.2.tree := by
  intro ran
  have trees := (Reader.new path options.reader).openSession_tree host
  have murmurs := (Reader.new path options.reader).openSession_murmurs host
  rcases unpackArchive_cases path output options observer host with
    ⟨_, _, _, refused, ends⟩ | ⟨session, between, opened, ⟨_, _, _, ends⟩ | ⟨made, making, ends⟩⟩
  · have opening := Reader.openSession_refused refused
    rw [refused] at trees murmurs
    simp only [ran, ends]
    constructor
    · intro _ _ _
      exact ⟨trees, murmurs.reports⟩
    · intro error failed breaks
      cases failed
      obtain ⟨reason, opening⟩ := opening
      rw [opening] at breaks
      cases breaks
  · simp only [ran, ends]
    constructor
    · intro _ _ failed
      cases failed
    · intro error failed breaks
      cases failed
      cases breaks
  · obtain ⟨script, later, decoders, headers, setup, start⟩ := Reader.openSession_opened opened
    have positive : 0 < session.setup.options.chunkSize := by
      rw [setup]
      exact options.reader.chunkSize_normalized_pos
    rw [opened] at murmurs
    dsimp only at ends murmurs
    constructor
    · intro refused reason failed
      rw [show ran = _ from ends] at failed
      obtain ⟨_, _, _, rest⟩ := UnpackJob.unpackMembers_interrupted (.inl start) positive failed
        (by simp) (by simp)
      obtain ⟨_, _, left⟩ := rest []
      cases left with
      | member _ _ interrupted _ => cases interrupted
    · intro error failed breaks
      have wanted : error ≠ .cancelled := by
        rintro rfl
        cases breaks
      have readable : ∀ cause, error ≠ .io cause := by
        rintro cause rfl
        cases breaks
      rw [show ran = _ from ends] at failed ⊢
      obtain ⟨finished, count, requests, rest⟩ :=
        UnpackJob.unpackMembers_interrupted (.inl start) positive failed wanted readable
      rw [headers, setup] at rest
      obtain ⟨value, reports, left⟩ := rest (script.headers.take finished)
      -- Both runs open the archive and make the output directory alike.
      have cut := Reader.openSession_upTo finished decoders opened
      have shorter := unpackArchive_opened observer cut making
      refine ⟨script, later, finished, count, decoders, ?_, ?_⟩
      · have begun : ({ between with tree := made } : Host).requests = host.requests :=
          murmurs.requests
        rw [(Session.close_murmurs _ _).requests, requests, begun]
      · rw [shorter]
        dsimp only
        rw [(Session.close_murmurs _ _).reports, (Session.close_murmurs _ _).reports,
          (Session.close_extends _ _).tree, (Session.close_extends _ _).tree]
        exact ⟨value, reports, left⟩

/-- The second of two files gives out after three bytes: the first one stays whole, and of the
second there are the three bytes. -/
theorem torn_second_file :
    let archive : Path := [0x78]
    let output : Path := [0x6F]
    let first : Name := [0x61]
    let second : Name := [0x62]
    let header (name : Name) : Header := ⟨some name, none, 3, true, 0o100644⟩
    let script : Script :=
      { headers := [{ header := some (header first), data := [{ serving := .content [1] }] },
          { header := some (header second),
            data := [{ serving := .content [1, 2, 3] }, { serving := .raw (-30) [] }] }] }
    let host : Host := { decoders := [some script], tree := { entries := [(archive, .file [0])] } }
    let ran := unpackArchive archive output {} (fun _ _ _ => {}) host
    let shorter := unpackArchive archive output {} (fun _ _ _ => {})
      { host with decoders := [some (script.upTo 1)] }
    ran.1 = .error (.archive (.reading archive .data (.status (-30)))) ∧
      shorter.1 = .ok { files := 1, bytes := 1 } ∧ ran.2.reports = shorter.2.reports ∧
      Torn output (header second).info [1, 2, 3] shorter.2.tree ran.2.tree := by
  intro archive output first second header script host ran shorter
  have failed : ran.1 = .error (.archive (.reading archive .data (.status (-30)))) := by cbv
  obtain ⟨_, left⟩ := unpackArchive_interrupted archive output {} (fun _ _ _ => {}) host
  obtain ⟨_, _, finished, count, decoders, requests, ok, reports, breaks⟩ := left _ failed rfl
  cases decoders
  have asked : ran.2.requests = 2 := by cbv
  have one : finished = 1 := by
    have counted : 2 = 0 + finished + 1 := asked.symm.trans requests
    omega
  subst one
  have fine : shorter.1 = .ok { files := 1, bytes := 1 } := by cbv
  refine ⟨failed, fine, reports, ?_⟩
  cases breaks with
  | member selected given interrupted torn =>
      cases selected
      cases given
      cases interrupted with
      | unreadable _ everything =>
          have all : chunks ({} : UnpackOptions).reader.normalized.chunkSize
              [{ serving := .content [1, 2, 3] }, { serving := .raw (-30) [] }] =
                [[1, 2, 3]] := by cbv
          rw [everything.trans all] at torn
          exact torn

end ArchiveTraversal
