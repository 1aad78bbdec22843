import ArchiveTraversal.Proofs.Journal.Growth
import ArchiveTraversal.Proofs.Unpack.Containment
import ArchiveTraversal.Proofs.Unpack.Interruption

/-!
The members that an unpack comes to, one visit each, and what can come of a visit. A member is
passed over, becomes a directory, or runs into an obstacle, all without a look at its data; or its
data goes to a file that has just been made for it.
-/

namespace ArchiveTraversal

namespace Host

/-- Where the data of a member is to go, if it gets so far, and the host as it is then. -/
def target? (host : Host) (output : Path) (info : MemberInfo) : Option (Location × Host) :=
  match Safety.destination info with
  | .error _ => none
  | .ok relative =>
      match host.clearFileAncestors output relative with
      | (.error _, _) => none
      | (.ok (), host) =>
          if info.isDirectory then none
          else match host.makeDirectories ((output.join relative).parent?.getD []) with
            | (.error _, _) => none
            | (.ok (), host) =>
                if host.tree.isDirectory (output.join relative) then none
                else match host.tree.createFile (output.join relative) with
                  | .error _ => none
                  | .ok (location, tree) => some (location, { host with tree := tree })

theorem safe_of_target {host : Host} {output : Path} {info : MemberInfo}
    {target : Location × Host} (found : host.target? output info = some target) :
    ∃ relative, Safety.destination info = .ok relative := by
  unfold target? at found
  split at found
  · cases found
  · rename_i safe
    exact ⟨_, safe⟩

def Clears (before after : Host) : Prop :=
  ∃ paths : List Path, before.Adds after (paths.map fun path => .event (.fileReplaced path))

theorem Clears.of_journal {before between after : Host} (clears : before.Clears between)
    (same : after.journal = between.journal) : before.Clears after := by
  obtain ⟨paths, adds⟩ := clears
  exact ⟨paths, by rw [Adds, same, adds]⟩

theorem clearFiles_clears (host : Host) (paths : List Path) :
    host.Clears (host.clearFiles paths).2 := by
  induction paths generalizing host with
  | nil => exact ⟨[], .refl host⟩
  | cons path deeper ih =>
      have told := host.event_adds (.fileReplaced path)
      simp only [clearFiles]
      split
      · split
        · exact ⟨[path], told⟩
        · rename_i tree _
          obtain ⟨others, adds⟩ := ih { host.event (.fileReplaced path) with tree := tree }
          have first : host.Adds { host.event (.fileReplaced path) with tree := tree } _ := told
          exact ⟨path :: others, first.trans adds⟩
      · exact ih host

theorem placeDirectory_journal (host : Host) (path : Path) :
    (host.placeDirectory path).2.journal = host.journal := by
  unfold placeDirectory
  split
  · split <;> rfl
  · rfl

end Host

namespace UnpackJob

variable (job : UnpackJob) (info : MemberInfo) (tally : Tally) (session : Session) (host : Host)

inductive Treats : Outcome (Except UnpackError Tally) → Prop
  | refused {error : SecurityError} (unaccepted : Safety.destination info = .error error)
      (nowhere : host.target? job.output info = none) :
      Treats ⟨.ok { tally with skipped := tally.skipped + 1 }, session,
        host.event (.memberSkipped info.path error)⟩
  | obstructed {error : IoError} {after : Host} (clears : host.Clears after)
      (nowhere : host.target? job.output info = none) :
      Treats ⟨.error (.io error), session, after⟩
  | directory {relative : Path} {after : Host} (safe : Safety.destination info = .ok relative)
      (is : info.isDirectory = true) (clears : host.Clears after)
      (nowhere : host.target? job.output info = none) :
      Treats ⟨.ok { tally with directories := tally.directories + 1 }, session, after⟩
  | blocked {relative : Path} {after : Host} (safe : Safety.destination info = .ok relative)
      (regular : info.isDirectory = false) (clears : host.Clears after)
      (nowhere : host.target? job.output info = none) :
      Treats ⟨.ok { tally with skipped := tally.skipped + 1 }, session,
        after.event (.memberBlocked info.path)⟩
  | file {relative : Path} {location : Location} {ready : Host}
      (safe : Safety.destination info = .ok relative) (regular : info.isDirectory = false)
      (clears : host.Clears ready) (found : host.target? job.output info = some (location, ready)) :
      Treats (job.fillFile info.path location tally session ready)

theorem unpackMember_treats :
    job.Treats info tally session host (job.unpackMember info tally session host) := by
  rcases job.unpackMember_cases tally session host info with
    ⟨error, unaccepted, ends⟩ | ⟨relative, safe, rest⟩
  · rw [ends]
    exact .refused unaccepted (by simp only [Host.target?, unaccepted])
  have clears := host.clearFiles_clears (job.output.leadingTo relative.names)
  rw [← Host.clearFileAncestors] at clears
  rcases rest with ⟨_, between, clearing, ends⟩ | ⟨between, clearing, rest⟩
  · rw [ends]
    rw [clearing] at clears
    exact .obstructed clears (by simp only [Host.target?, safe, clearing])
  rw [clearing] at clears
  rcases rest with ⟨is, rest⟩ | ⟨regular, ends⟩
  · have placed := between.placeDirectory_journal (job.output.join relative)
    have nowhere : host.target? job.output info = none := by
      simp only [Host.target?, safe, clearing, is, ↓reduceIte]
    rcases rest with ⟨_, after, placing, ends⟩ | ⟨after, placing, ends⟩
    · rw [ends]
      rw [placing] at placed
      exact .obstructed (clears.of_journal placed) nowhere
    · rw [ends]
      rw [placing] at placed
      exact .directory safe is (clears.of_journal placed) nowhere
  rw [ends]
  rcases job.unpackFile_cases tally session between info.path (job.output.join relative) with
    ⟨_, _, making, ends⟩ | ⟨made, making, ⟨stands, ends⟩ |
      ⟨free, ⟨_, creating, ends⟩ | ⟨location, opened, creating, ends⟩⟩⟩
  · rw [ends]
    refine .obstructed (clears.of_journal rfl) ?_
    simp only [Host.target?, safe, clearing, regular, Bool.false_eq_true, ↓reduceIte,
      Host.makeDirectories, making]
  · rw [ends]
    refine .blocked safe regular (clears.of_journal rfl) ?_
    simp only [Host.target?, safe, clearing, regular, Bool.false_eq_true, ↓reduceIte,
      Host.makeDirectories, making, stands]
  · rw [ends]
    refine .obstructed (clears.of_journal rfl) ?_
    simp only [Host.target?, safe, clearing, regular, Bool.false_eq_true, ↓reduceIte,
      Host.makeDirectories, making, free, creating]
  · rw [ends]
    refine .file safe regular (clears.of_journal rfl) ?_
    simp only [Host.target?, safe, clearing, regular, Bool.false_eq_true, ↓reduceIte,
      Host.makeDirectories, making, free, creating]

def limited (job : UnpackJob) (limit : Option Nat) : UnpackJob := { job with sizeLimit := limit }

/-- A member whose data goes nowhere is treated alike under any limit. -/
theorem unpackMember_limited {job : UnpackJob} {info : MemberInfo} {host : Host}
    (limit : Option Nat) (nowhere : host.target? job.output info = none) :
    (job.limited limit).unpackMember info tally session host =
      job.unpackMember info tally session host := by
  revert nowhere
  unfold Host.target? unpackMember unpackFile limited
  cases Safety.destination info with
  | error refused => exact fun _ => rfl
  | ok relative =>
      dsimp only
      obtain ⟨_ | _, host⟩ := host.clearFileAncestors job.output relative
      · exact fun _ => rfl
      by_cases is : info.isDirectory
      · simp only [is, ↓reduceIte, implies_true]
      simp only [is, Bool.false_eq_true, ↓reduceIte]
      obtain ⟨_ | _, host⟩ := host.makeDirectories ((job.output.join relative).parent?.getD [])
      · exact fun _ => rfl
      dsimp only
      by_cases stands : host.tree.isDirectory (job.output.join relative)
      · simp only [stands, ↓reduceIte, implies_true]
      simp only [stands, Bool.false_eq_true, ↓reduceIte]
      cases host.tree.createFile (job.output.join relative) with
      | error failure => exact fun _ => rfl
      | ok created =>
          intro nowhere
          cases nowhere

def walk (job : UnpackJob) (tally : Tally) (session : Session) (host : Host) :
    Outcome (Walk UnpackError × Written) :=
  session.forEachChunk job.writer { total := tally.bytes } host

def filled (job : UnpackJob) (location : Location) (tally : Tally) (session : Session)
    (host : Host) : Host :=
  (job.walk tally session host).host.fill location (job.walk tally session host).value.2.content

def counted (job : UnpackJob) (tally : Tally) (session : Session) (host : Host) : Tally :=
  { tally with
    files := tally.files + 1
    bytes := (job.walk tally session host).value.2.total }

theorem report_adds (name : String) :
    host.Adds (job.report name tally host).2 (.progress name tally.bytes ::
      raised (job.observer tally.files name tally.bytes).raisesCancel) :=
  (host.record_adds _).trans (Host.raiseIf_adds ..)

inductive Fills (name : String) (location : Location) : Outcome (Except UnpackError Tally) → Prop
  | unreadable {error : ArchiveError}
      (ends : (job.walk tally session host).value.1 = .unreadable error) :
      Fills name location ⟨.error (.archive error), (job.walk tally session host).session,
        job.filled location tally session host⟩
  | stopped {error : UnpackError}
      (ends : (job.walk tally session host).value.1 = .stopped error) :
      Fills name location ⟨.error error, (job.walk tally session host).session,
        job.filled location tally session host⟩
  | complete (ends : (job.walk tally session host).value.1 = .complete) :
      Fills name location
        ⟨(job.report name (job.counted tally session host)
            ((job.filled location tally session host).event (.memberWritten name))).1,
          (job.walk tally session host).session,
          (job.report name (job.counted tally session host)
            ((job.filled location tally session host).event (.memberWritten name))).2⟩

theorem fillFile_fills (name : String) (location : Location) :
    job.Fills tally session host name location
      (job.fillFile name location tally session host) := by
  unfold fillFile
  dsimp only
  split
  · rename_i ends
    exact .unreadable ends
  · rename_i ends
    exact .stopped ends
  · rename_i ends
    exact .complete ends

end UnpackJob

structure Write where
  location : Location
  chunk : Bytes
  deriving DecidableEq, Repr

def Write.size (write : Write) : Nat := write.chunk.length

def volume (writes : List Write) : Nat := (writes.map Write.size).sum

theorem volume_append (writes more : List Write) :
    volume (writes ++ more) = volume writes + volume more := by
  rw [volume, List.map_append, List.sum_append]
  rfl

theorem volume_map (location : Location) (chunks : List Bytes) :
    volume (chunks.map (Write.mk location)) = chunks.flatten.length := by
  rw [volume, List.map_map, List.length_flatten]
  rfl

/-- A file of which there is nothing left to write. -/
structure Finished where
  name : String
  chunks : List Bytes

def Finished.size (file : Finished) : Nat := file.chunks.flatten.length

/-- A member that an unpack has come to: what its header tells, and how things stand then. -/
structure Visit where
  info : MemberInfo
  tally : Tally
  session : Session
  host : Host

namespace UnpackJob

def meets (tally : Tally) (session : Session) (host : Host) (header : Header) : Visit :=
  ⟨header.info, tally, (session.advance host).session, (session.advance host).host⟩

def treat (job : UnpackJob) (visit : Visit) : Outcome (Except UnpackError Tally) :=
  job.unpackMember visit.info visit.tally visit.session visit.host

section

variable (job : UnpackJob) (tally : Tally) (session : Session) (host : Host) (header : Header)

theorem meets_setup :
    (job.treat (meets tally session host header)).session.setup = session.setup :=
  (job.unpackMember_setup ..).trans (session.advance_setup host)

theorem meets_headers :
    (job.treat (meets tally session host header)).session.handle.headers =
      (session.advance host).session.handle.headers :=
  job.unpackMember_headers ..

variable {job tally session host header}

theorem meets_going {next : Tally} (moved : (session.advance host).value = .ok (some header))
    (done : (job.treat (meets tally session host header)).value = .ok next) :
    (job.treat (meets tally session host header)).session.Going := by
  obtain ⟨_, movedTo⟩ := Session.movedTo_of_advance moved
  exact .inr (unpackMember_onMember movedTo.cursor movedTo.onData done)

end

/-- How a run goes: the members that it comes to, one after the other, and where it ends. None
follows one that ends it. -/
inductive Goes (job : UnpackJob) : Tally → Session → Host → List Visit →
    Outcome (Except UnpackError Tally) → Prop
  | cancelled {tally : Tally} {session : Session} {host : Host} (raised : host.cancelled = true) :
      Goes job tally session host [] ⟨.error .cancelled, session, host⟩
  | unreadable {tally : Tally} {session : Session} {host : Host} {error : ArchiveError}
      (lowered : host.cancelled = false) (failed : (session.advance host).value = .error error) :
      Goes job tally session host []
        ⟨.error (.archive error), (session.advance host).session, (session.advance host).host⟩
  | ended {tally : Tally} {session : Session} {host : Host} (lowered : host.cancelled = false)
      (ended : (session.advance host).value = .ok none) :
      Goes job tally session host []
        ⟨.ok tally, (session.advance host).session, (session.advance host).host⟩
  | stopped {tally : Tally} {session : Session} {host : Host} {header : Header}
      {error : UnpackError} (lowered : host.cancelled = false)
      (moved : (session.advance host).value = .ok (some header))
      (broken : (job.treat (meets tally session host header)).value = .error error) :
      Goes job tally session host [meets tally session host header]
        ⟨.error error, (job.treat (meets tally session host header)).session,
          (job.treat (meets tally session host header)).host⟩
  | member {tally next : Tally} {session : Session} {host : Host} {header : Header}
      {later : List Visit} {final : Outcome (Except UnpackError Tally)}
      (lowered : host.cancelled = false) (moved : (session.advance host).value = .ok (some header))
      (done : (job.treat (meets tally session host header)).value = .ok next)
      (goes : Goes job next (job.treat (meets tally session host header)).session
        (job.treat (meets tally session host header)).host later final) :
      Goes job tally session host (meets tally session host header :: later) final

def visits (job : UnpackJob) (tally : Tally) (session : Session) (host : Host) : List Visit :=
  if host.cancelled then []
  else
    match _taken : (session.advance host).value with
    | .ok (some header) =>
        let visit := meets tally session host header
        visit :: match (job.treat visit).value with
          | .ok tally => job.visits tally (job.treat visit).session (job.treat visit).host
          | .error _ => []
    | _ => []
termination_by session.handle.headers.length
decreasing_by
  unfold treat
  rw [unpackMember_headers]
  exact session.advance_headers host _taken

theorem visits_step (job : UnpackJob) (tally : Tally) (session : Session) {host : Host}
    (lowered : host.cancelled = false) :
    job.visits tally session host =
      match (session.advance host).value with
      | .ok (some header) =>
          let visit := meets tally session host header
          visit :: match (job.treat visit).value with
            | .ok tally => job.visits tally (job.treat visit).session (job.treat visit).host
            | .error _ => []
      | _ => [] := by
  rw [visits]
  simp only [lowered, Bool.false_eq_true, ↓reduceIte]
  split
  · rename_i moved
    simp only [moved]
  · rename_i ends
    split
    · rename_i moved
      exact absurd moved (ends _)
    · rfl

theorem unpackMembers_goes (job : UnpackJob) (tally : Tally) (session : Session) (host : Host) :
    job.Goes tally session host (job.visits tally session host)
      (job.unpackMembers tally session host) := by
  fun_induction unpackMembers job tally session host with
  | case1 tally session host raised =>
      rw [visits, if_pos raised]
      exact .cancelled raised
  | case2 tally session host lowered advanced error failed =>
      have value : (session.advance host).value = .error error := failed
      rw [Bool.not_eq_true] at lowered
      rw [job.visits_step tally session lowered, value]
      exact .unreadable lowered value
  | case3 tally session host lowered advanced ended =>
      have value : (session.advance host).value = .ok none := ended
      rw [Bool.not_eq_true] at lowered
      rw [job.visits_step tally session lowered, value]
      exact .ended lowered value
  | case4 tally session host lowered advanced header moved member error broken =>
      have value : (session.advance host).value = .ok (some header) := moved
      have treated : (job.treat (meets tally session host header)).value = .error error := broken
      rw [Bool.not_eq_true] at lowered
      rw [job.visits_step tally session lowered, value]
      simp only [treated]
      exact .stopped lowered value treated
  | case5 tally session host lowered advanced header moved member next done ih =>
      have value : (session.advance host).value = .ok (some header) := moved
      have treated : (job.treat (meets tally session host header)).value = .ok next := done
      rw [Bool.not_eq_true] at lowered
      rw [job.visits_step tally session lowered, value]
      simp only [treated]
      exact .member lowered value treated ih

theorem Goes.of_raised {job : UnpackJob} {tally : Tally} {session : Session} {host : Host}
    {visits : List Visit} {final : Outcome (Except UnpackError Tally)}
    (goes : job.Goes tally session host visits final) (up : host.cancelled = true) :
    visits = [] ∧ final = ⟨.error .cancelled, session, host⟩ := by
  cases goes with
  | cancelled => exact ⟨rfl, rfl⟩
  | unreadable lowered => cases up.symm.trans lowered
  | ended lowered => cases up.symm.trans lowered
  | stopped lowered => cases up.symm.trans lowered
  | member lowered => cases up.symm.trans lowered

theorem Goes.eq {job : UnpackJob} {tally : Tally} {session : Session} {host : Host}
    {visits : List Visit} {final : Outcome (Except UnpackError Tally)}
    (goes : job.Goes tally session host visits final) :
    visits = job.visits tally session host ∧ final = job.unpackMembers tally session host := by
  induction goes with
  | cancelled raised =>
      rw [UnpackJob.visits, unpackMembers, if_pos raised, if_pos raised]
      exact ⟨rfl, rfl⟩
  | unreadable lowered failed =>
      rw [visits_step _ _ _ lowered, unpackMembers_step _ _ _ _ lowered]
      simp only [failed]
      exact ⟨trivial, trivial⟩
  | ended lowered ended =>
      rw [visits_step _ _ _ lowered, unpackMembers_step _ _ _ _ lowered]
      simp only [ended]
      exact ⟨trivial, trivial⟩
  | @stopped tally session host header error lowered moved broken =>
      have same : (job.unpackMember header.info tally (session.advance host).session
        (session.advance host).host).value = .error error := broken
      rw [visits_step _ _ _ lowered, unpackMembers_step _ _ _ _ lowered]
      simp only [moved, broken, same]
      exact ⟨trivial, rfl⟩
  | @member tally next session host header later final lowered moved done goes ih =>
      have same : (job.unpackMember header.info tally (session.advance host).session
        (session.advance host).host).value = .ok next := done
      rw [visits_step _ _ _ lowered, unpackMembers_step _ _ _ _ lowered]
      simp only [moved, done, same]
      exact ⟨congrArg _ ih.1, ih.2⟩

/-- The chunks that a visit writes, in order. -/
def writesOf (job : UnpackJob) (visit : Visit) : List Write :=
  match visit.host.target? job.output visit.info with
  | some (location, ready) =>
      (job.walk visit.tally visit.session ready).value.2.chunks.reverse.map (Write.mk location)
  | none => []

/-- The file that a visit has written to its end: until a read gave nothing more. -/
def finished? (job : UnpackJob) (visit : Visit) : Option Finished :=
  match visit.host.target? job.output visit.info with
  | some (_, ready) =>
      let walked := job.walk visit.tally visit.session ready
      if walked.value.1 = .complete then some ⟨visit.info.path, walked.value.2.chunks.reverse⟩
      else none
  | none => none

section

variable {job : UnpackJob} {visit : Visit} {next : Tally} {ready : Host} {location : Location}

theorem forEachChunk_counts (job : UnpackJob) (written : Written) (session : Session)
    (host : Host) :
    let last := (session.forEachChunk job.writer written host).value.2
    last.total + written.chunks.flatten.length = written.total + last.chunks.flatten.length := by
  intro last
  simp only [last]
  fun_induction Session.forEachChunk job.writer written session host with
  | case1 => rfl
  | case2 => rfl
  | case3 => rfl
  | case4 written _ _ _ _ _ _ _ last _ refuses =>
      simp only [writer] at refuses
      split at refuses
      · cases refuses
        rfl
      · cases refuses
  | case5 written _ _ _ _ byte more _ next accepted ih =>
      simp only [writer] at accepted
      split at accepted
      · cases accepted
      · cases accepted
        simp only [List.flatten_cons, List.length_append] at ih
        omega

theorem walk_total (job : UnpackJob) (tally : Tally) (session : Session) (host : Host) :
    (job.walk tally session host).value.2.total =
      tally.bytes + (job.walk tally session host).value.2.content.length := by
  have counts := job.forEachChunk_counts { total := tally.bytes } session host
  dsimp only [List.flatten_nil, List.length_nil, Nat.add_zero] at counts
  rw [walk, counts, Written.content, List.length_flatten, List.length_flatten, List.map_reverse,
    List.sum_reverse]

theorem treat_treats (job : UnpackJob) (visit : Visit) :
    job.Treats visit.info visit.tally visit.session visit.host (job.treat visit) :=
  unpackMember_treats ..

theorem treat_of_target (job : UnpackJob)
    (found : visit.host.target? job.output visit.info = some (location, ready)) :
    visit.info.isDirectory = false ∧ visit.host.Clears ready ∧
      job.treat visit = job.fillFile visit.info.path location visit.tally visit.session ready := by
  have treats := job.treat_treats visit
  generalize job.treat visit = outcome at *
  cases treats with
  | file _ regular clears aimed =>
      cases found.symm.trans aimed
      exact ⟨regular, clears, rfl⟩
  | refused _ nowhere => cases found.symm.trans nowhere
  | obstructed _ nowhere => cases found.symm.trans nowhere
  | directory _ _ _ nowhere => cases found.symm.trans nowhere
  | blocked _ _ _ nowhere => cases found.symm.trans nowhere

theorem treat_fills (job : UnpackJob)
    (found : visit.host.target? job.output visit.info = some (location, ready)) :
    job.Fills visit.tally visit.session ready visit.info.path location (job.treat visit) := by
  rw [(treat_of_target job found).2.2]
  exact job.fillFile_fills ..

theorem writesOf_of_nowhere (job : UnpackJob)
    (nowhere : visit.host.target? job.output visit.info = none) :
    job.writesOf visit = [] := by
  simp only [writesOf, nowhere]

theorem writesOf_of_target (job : UnpackJob)
    (found : visit.host.target? job.output visit.info = some (location, ready)) :
    job.writesOf visit = (job.walk visit.tally visit.session ready).value.2.chunks.reverse.map
      (Write.mk location) := by
  simp only [writesOf, found]

/-- What a visit writes is what its file holds after it. -/
theorem treat_content
    (found : visit.host.target? job.output visit.info = some (location, ready)) :
    (job.treat visit).host.tree = ready.tree.put location
      (.file ((job.writesOf visit).flatMap Write.chunk)) := by
  have filled : (job.filled location visit.tally visit.session ready).tree =
      ready.tree.put location (.file ((job.writesOf visit).flatMap Write.chunk)) := by
    have same :=
      (visit.session.forEachChunk_extends job.writer { total := visit.tally.bytes } ready).tree
    rw [writesOf_of_target job found, List.flatMap_map, List.flatMap_id']
    exact congrArg (fun tree : FileTree => tree.put location _) same
  have fills := treat_fills job found
  generalize job.treat visit = outcome at *
  cases fills with
  | unreadable => exact filled
  | stopped => exact filled
  | complete =>
      rw [report_tree]
      exact filled

theorem treat_bytes (done : (job.treat visit).value = .ok next) :
    next.bytes = visit.tally.bytes + volume (job.writesOf visit) := by
  have treats := job.treat_treats visit
  generalize job.treat visit = outcome at *
  cases treats with
  | refused _ nowhere =>
      cases done
      rw [writesOf_of_nowhere job nowhere]
      rfl
  | obstructed => cases done
  | directory _ _ _ nowhere =>
      cases done
      rw [writesOf_of_nowhere job nowhere]
      rfl
  | blocked _ _ _ nowhere =>
      cases done
      rw [writesOf_of_nowhere job nowhere]
      rfl
  | @file _ location ready _ _ _ found =>
      rw [writesOf_of_target job found, volume_map, ← Written.content]
      have fills := job.fillFile_fills visit.tally visit.session ready visit.info.path location
      generalize job.fillFile _ location visit.tally visit.session ready = outcome at *
      cases fills with
      | unreadable => cases done
      | stopped => cases done
      | complete =>
          dsimp only [report] at done
          split at done
          · cases done
            exact job.walk_total visit.tally visit.session ready
          · cases done

end

end UnpackJob

/-- How an unpack goes, from opening the archive to freeing the decoder. -/
inductive Unpacks (path output : Path) (options : UnpackOptions) (observer : Observer)
    (host : Host) : List Visit → Except UnpackError Tally × Host → Prop
  | refused {error : ArchiveError} {reader : Reader} {between : Host}
      (refused : (Reader.new path options.reader).openSession host =
        (.refused error reader, between)) :
      Unpacks path output options observer host [] (.error (.archive error), between)
  | obstructed {session : Session} {between : Host} {error : IoError} {made : FileTree}
      (opened : (Reader.new path options.reader).openSession host = (.opened session, between))
      (making : between.tree.makeDirectories output = (.error error, made)) :
      Unpacks path output options observer host []
        (.error (.io error), (session.close { between with tree := made }).2.2)
  | ran {session : Session} {between : Host} {made : FileTree} {visits : List Visit}
      {final : Outcome (Except UnpackError Tally)}
      (opened : (Reader.new path options.reader).openSession host = (.opened session, between))
      (making : between.tree.makeDirectories output = (.ok (), made))
      (goes : (options.job output observer).Goes {} session { between with tree := made } visits
        final) :
      Unpacks path output options observer host visits
        (final.value, (final.session.close final.host).2.2)

def unpackVisits (path output : Path) (options : UnpackOptions) (observer : Observer)
    (host : Host) : List Visit :=
  match (Reader.new path options.reader).openSession host with
  | (.refused .., _) => []
  | (.opened session, host) =>
      match host.makeDirectories output with
      | (.error _, _) => []
      | (.ok (), host) => (options.job output observer).visits {} session host

section

variable (path output : Path) (options : UnpackOptions) (observer : Observer) (host : Host)

theorem unpackArchive_unpacks :
    Unpacks path output options observer host (unpackVisits path output options observer host)
      (unpackArchive path output options observer host) := by
  unfold unpackVisits
  rcases unpackArchive_cases path output options observer host with
    ⟨_, _, _, refused, ends⟩ | ⟨session, between, opened, ⟨_, _, making, ends⟩ | ⟨_, making, ends⟩⟩
  · rw [ends, refused]
    exact .refused refused
  · rw [ends, opened]
    simp only [Host.makeDirectories, making]
    exact .obstructed opened making
  · rw [ends, opened]
    simp only [Host.makeDirectories, making]
    exact .ran opened making (UnpackJob.unpackMembers_goes ..)

variable {path output options observer host}

theorem Unpacks.eq {visits : List Visit} {result : Except UnpackError Tally × Host}
    (unpacks : Unpacks path output options observer host visits result) :
    visits = unpackVisits path output options observer host ∧
      result = unpackArchive path output options observer host := by
  unfold unpackVisits unpackArchive
  cases unpacks with
  | refused refused =>
      rw [refused]
      exact ⟨rfl, rfl⟩
  | obstructed opened making =>
      rw [opened]
      simp only [Host.makeDirectories, making]
      exact ⟨trivial, trivial⟩
  | ran opened making goes =>
      rw [opened]
      simp only [Host.makeDirectories, making]
      obtain ⟨visited, same⟩ := goes.eq
      rw [visited, same]
      exact ⟨rfl, rfl⟩

end

end ArchiveTraversal
