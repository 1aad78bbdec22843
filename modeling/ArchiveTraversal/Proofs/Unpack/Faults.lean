import ArchiveTraversal.Proofs.Decoder.Answers
import ArchiveTraversal.Proofs.Unpack.Visits

/-!
Where an unpack fails because its decoder does. The failure that it gives tells of the stage at
which the decoder has failed; nothing else that stops an unpack is blamed on the archive.
-/

namespace ArchiveTraversal

open Decoder

def UnpackError.stage? : UnpackError → Option ReadStage
  | .archive error => error.stage?
  | _ => none

theorem Host.Clears.calls {before after : Host} (clears : before.Clears after) :
    after.calls = before.calls := by
  obtain ⟨paths, adds⟩ := clears
  rw [adds.calls, List.filterMap_map]
  have quiet : paths.filterMap (Record.call? ∘ fun path => .event (.fileReplaced path)) = [] := by
    apply List.filterMap_eq_nil_iff.mpr
    intro path _
    rfl
  rw [quiet, List.append_nil]

namespace UnpackJob

variable {job : UnpackJob} {visit : Visit} {tally : Tally} {session : Session} {host : Host}

theorem report_calls (job : UnpackJob) (name : String) (tally : Tally) (host : Host) :
    (job.report name tally host).2.calls = host.calls := by
  rw [(job.report_adds tally host name).calls]
  generalize (job.observer tally.files name tally.bytes).raisesCancel = raises
  cases raises <;> exact List.append_nil _

theorem writer_stops {written : Written} {error : UnpackError}
    (stopped : (session.forEachChunk job.writer written host).value.1 = .stopped error) :
    ∀ cause, error ≠ .archive cause := by
  fun_induction Session.forEachChunk job.writer written session host with
  | case1 written session host cause halts =>
      cases stopped
      simp only [writer] at halts
      split at halts
      · cases halts
        exact fun _ => UnpackError.noConfusion
      · cases halts
  | case2 => cases stopped
  | case3 => cases stopped
  | case4 written session host goesOn read byte more filled last cause refuses =>
      cases stopped
      obtain ⟨_, _, _, _, exceeded⟩ := writer_refuses refuses
      rw [exceeded]
      exact fun _ => UnpackError.noConfusion
  | case5 _ _ _ _ _ _ _ _ _ _ ih => exact ih stopped

theorem fillFile_answers (job : UnpackJob) (name : String) (location : Location) (tally : Tally)
    (onMember : session.cursor = .onMember) (host : Host) :
    let filled := job.fillFile name location tally session host
    session.handle.Answers host filled.session.handle filled.host
      (stageOf UnpackError.stage? filled.value) := by
  intro filled
  have fills := job.fillFile_fills tally session host name location
  simp only [filled]
  generalize job.fillFile name location tally session host = outcome at *
  cases fills with
  | unreadable ends => exact Session.forEachChunk_answers onMember ends
  | @stopped error ends =>
      cases error with
      | archive cause => exact absurd rfl (writer_stops ends cause)
      | _ => exact Session.forEachChunk_answers onMember ends
  | complete ends =>
      have walked : session.handle.Answers host (job.walk tally session host).session.handle
          (job.filled location tally session host) none :=
        Session.forEachChunk_answers onMember ends
      have told := walked.sound_last (.of_calls
        ((job.report_calls name (job.counted tally session host) _).trans
          (Host.event_quiet _ (.memberWritten name)).calls))
      dsimp only [report] at told ⊢
      split <;> exact told

theorem treat_answers (job : UnpackJob) (visit : Visit)
    (onData : visit.info.isDirectory = false → visit.session.OnData) :
    visit.session.handle.Answers visit.host (job.treat visit).session.handle
      (job.treat visit).host (stageOf UnpackError.stage? (job.treat visit).value) := by
  have treats := job.treat_treats visit
  generalize job.treat visit = outcome at *
  cases treats with
  | refused => exact .of_calls (Host.event_quiet ..).calls
  | obstructed clears => exact .of_calls clears.calls
  | directory _ _ clears => exact .of_calls clears.calls
  | blocked _ _ clears => exact .of_calls ((Host.event_quiet ..).calls.trans clears.calls)
  | file _ regular clears =>
      have cleared : visit.session.handle.Answers visit.host visit.session.handle _ none :=
        .of_calls clears.calls
      exact cleared.sound_first (fillFile_answers job _ _ _ (onData regular).cursor _)

theorem treat_fails (job : UnpackJob) (visit : Visit) {error : ArchiveError}
    (failed : (job.treat visit).value = .error (.archive error)) :
    ∃ reason, error = .reading visit.session.setup.path .data reason := by
  have treats := job.treat_treats visit
  generalize job.treat visit = outcome at *
  cases treats with
  | refused => cases failed
  | obstructed => cases failed
  | directory => cases failed
  | blocked => cases failed
  | @file _ location ready =>
      have fills := job.fillFile_fills visit.tally visit.session ready visit.info.path location
      generalize job.fillFile _ location visit.tally visit.session ready = outcome at *
      cases fills with
      | unreadable ends =>
          cases failed
          exact Session.forEachChunk_fails ends
      | stopped ends =>
          cases failed
          exact absurd rfl (writer_stops ends error)
      | complete =>
          dsimp only [report] at failed
          split at failed <;> cases failed

theorem Goes.fails {visits : List Visit} {final : Outcome (Except UnpackError Tally)}
    {error : ArchiveError} (goes : job.Goes tally session host visits final)
    (failed : final.value = .error (.archive error)) :
    ∃ stage reason, error = .reading session.setup.path stage reason := by
  induction goes with
  | cancelled => cases failed
  | ended => cases failed
  | unreadable _ broken =>
      cases failed
      exact ⟨.header, Session.advance_fails broken⟩
  | @stopped tally session host header cause _ moved broken =>
      cases failed
      have fails := treat_fails job _ broken
      rw [show (meets tally session host header).session.setup = _
        from session.advance_setup host] at fails
      exact ⟨.data, fails⟩
  | @member tally next session host header later final _ moved done rest ih =>
      rw [← job.meets_setup tally session host header]
      exact ih failed

theorem Goes.answers {visits : List Visit} {final : Outcome (Except UnpackError Tally)}
    (goes : job.Goes tally session host visits final) (going : session.Going) :
    session.handle.Answers host final.session.handle final.host
      (stageOf UnpackError.stage? final.value) := by
  induction goes with
  | cancelled => exact .of_calls rfl
  | unreadable _ failed => exact going.advance_answers failed
  | ended _ ended => exact going.advance_answers ended
  | @stopped tally session host header error _ moved broken =>
      obtain ⟨_, movedTo⟩ := Session.movedTo_of_advance moved
      have visited := treat_answers job (meets tally session host header) movedTo.onData
      rw [broken] at visited
      exact (going.advance_answers moved).sound_first visited
  | @member tally next session host header later final _ moved done rest ih =>
      obtain ⟨_, movedTo⟩ := Session.movedTo_of_advance moved
      have waits := meets_going moved done
      have visited := treat_answers job (meets tally session host header) movedTo.onData
      rw [done] at visited
      have met := (going.advance_answers moved).sound_first visited
      exact met.sound_first (ih waits)

end UnpackJob

end ArchiveTraversal
