import ArchiveTraversal.Proofs.Session.Arrival
import ArchiveTraversal.Proofs.Unpack.Accounts
import ArchiveTraversal.Proofs.Unpack.Transfers

/-!
How far a run has come by each of its visits. The session stands on the member of that number, and
the tally and the journal have what the visits before it come to. If the visit fails, it is where
the run ends.
-/

namespace ArchiveTraversal

open Decoder

/-- The running total of the last report, or what there was before the first. -/
def lastTotal (before : Nat) (reports : List (String × Nat)) : Nat :=
  (reports.getLast?.map Prod.snd).getD before

theorem lastTotal_account (before : Nat) (files : List Finished) :
    lastTotal before (account before files) = before + (files.map Finished.size).sum := by
  induction files generalizing before with
  | nil => rfl
  | cons file rest ih =>
      have total := ih (before + file.size)
      rw [List.map_cons, List.sum_cons, ← Nat.add_assoc, ← total]
      cases rest with
      | nil => rfl
      | cons => simp [account, lastTotal, List.getLast?_cons]

theorem Host.Told.reports {start : Nat} {before after : Host} {totals : Totals}
    (told : before.Told start after totals) :
    after.reports = before.reports ++ totals.reports := by
  obtain ⟨records, adds, rfl, _⟩ := told
  rw [Host.reports, Host.reports, adds, List.filterMap_append]
  rfl

namespace UnpackJob

variable {job : UnpackJob} {tally : Tally} {session : Session} {host : Host} {visit : Visit}
  {visits : List Visit} {final : Outcome (Except UnpackError Tally)} {index : Nat}

theorem meets_standsOn (tally : Tally) {header : Header}
    (moved : (session.advance host).value = .ok (some header)) :
    ∃ item, LeadsTo session.handle.headers 0 item header ∧
      (meets tally session host header).session.StandsOn session.setup session.handle.number item
        header := by
  obtain ⟨item, movedTo⟩ := Session.movedTo_of_advance moved
  refine ⟨item, ?_, movedTo.standsOn⟩
  rw [movedTo.left]
  exact .next movedTo.code movedTo.given

theorem Goes.standsOn (goes : job.Goes tally session host visits final)
    (there : visits[index]? = some visit) :
    ∃ item header, LeadsTo session.handle.headers index item header ∧
      visit.info = header.info ∧
      visit.session.StandsOn session.setup session.handle.number item header := by
  induction goes generalizing index with
  | cancelled => simp at there
  | unreadable => simp at there
  | ended => simp at there
  | @stopped tally session host header error _ moved _ =>
      cases index with
      | zero =>
          cases there
          obtain ⟨item, leads, stands⟩ := meets_standsOn tally moved
          exact ⟨item, header, leads, rfl, stands⟩
      | succ index => simp at there
  | @member tally next session host header later final _ moved done _ ih =>
      cases index with
      | zero =>
          cases there
          obtain ⟨item, leads, stands⟩ := meets_standsOn tally moved
          exact ⟨item, header, leads, rfl, stands⟩
      | succ index =>
          -- The first visit leaves just the headers that follow its member.
          obtain ⟨first, movedTo⟩ := Session.movedTo_of_advance moved
          obtain ⟨item, other, leads, info, stands⟩ := ih there
          rw [job.meets_headers tally session host header] at leads
          rw [job.meets_setup tally session host header,
            job.meets_number tally session host header] at stands
          refine ⟨item, other, ?_, info, stands⟩
          rw [movedTo.left]
          exact .later movedTo.code movedTo.given leads

theorem accounted_first (job : UnpackJob) (tally : Tally) (going : session.Going) (host : Host) :
    job.Accounted tally [] host
      ⟨.ok tally, (session.advance host).session, (session.advance host).host⟩ {} := by
  refine ⟨going.advance_told host tally.bytes, rfl, rfl, ?_⟩
  intro last ok
  cases ok
  exact .nil job tally

/-- What a visit finds on its tally and in the journal is what the visits before it come to. -/
theorem Goes.accounted_before (goes : job.Goes tally session host visits final)
    (going : session.Going) (there : visits[index]? = some visit) :
    ∃ totals, job.Accounted tally (visits.take index) host
      ⟨.ok visit.tally, visit.session, visit.host⟩ totals := by
  induction goes generalizing index with
  | cancelled => simp at there
  | unreadable => simp at there
  | ended => simp at there
  | @stopped tally session host header _ _ _ _ =>
      cases index with
      | zero =>
          cases there
          exact ⟨{}, job.accounted_first tally going host⟩
      | succ index => simp at there
  | @member tally next session host header later final _ moved done _ ih =>
      cases index with
      | zero =>
          cases there
          exact ⟨{}, job.accounted_first tally going host⟩
      | succ index =>
          obtain ⟨_, movedTo⟩ := Session.movedTo_of_advance moved
          have waits := meets_going moved done
          obtain ⟨totals, accounted⟩ :=
            treat_accounted job (meets tally session host header) movedTo.onData
          have here : job.Accounted tally [meets tally session host header]
              (session.advance host).host _ totals := accounted
          obtain ⟨further, others⟩ := ih waits there
          exact ⟨_, Accounted.advanced going (here.append done others)⟩

theorem Accounted.reported {outcome : Outcome (Except UnpackError Tally)} {totals : Totals}
    (accounted : job.Accounted tally visits host outcome totals) :
    outcome.host.reports =
      host.reports ++ account tally.bytes (visits.filterMap job.finished?) := by
  rw [accounted.told.reports, accounted.reports]

/-- A visit that fails is the last one, and what it leaves is what the run leaves. -/
theorem Goes.broken (goes : job.Goes tally session host visits final) {error : UnpackError}
    (member : visit ∈ visits) (failed : (job.treat visit).value = .error error) :
    final.value = .error error ∧ final.host = (job.treat visit).host := by
  induction goes with
  | cancelled => cases member
  | unreadable => cases member
  | ended => cases member
  | stopped _ _ broken =>
      cases List.mem_singleton.mp member
      cases broken.symm.trans failed
      exact ⟨rfl, rfl⟩
  | member _ _ done _ ih =>
      rcases List.mem_cons.mp member with rfl | later
      · cases done.symm.trans failed
      · exact ih later

end UnpackJob

section

variable {path output : Path} {options : UnpackOptions} {observer : Observer} {host : Host}
  {visits : List Visit} {result : Except UnpackError Tally × Host} {index : Nat} {visit : Visit}

theorem Unpacks.standsOn (unpacks : Unpacks path output options observer host visits result)
    (there : visits[index]? = some visit) :
    ∃ script item header, Reader.Opens path host script ∧
      LeadsTo script.headers index item header ∧ visit.info = header.info ∧
      visit.session.StandsOn ⟨path, options.reader.normalized⟩ host.allocated item header := by
  cases unpacks with
  | refused => simp at there
  | obstructed => simp at there
  | ran opened _ goes =>
      obtain ⟨script, opens, handle, _⟩ := Reader.opens_of_opened opened
      obtain ⟨_, _, _, _, setup, _⟩ := Reader.openSession_opened opened
      obtain ⟨item, header, leads, info, stands⟩ := goes.standsOn there
      rw [handle] at leads stands
      rw [setup] at stands
      exact ⟨script, item, header, opens, leads, info, stands⟩

theorem Unpacks.reported (unpacks : Unpacks path output options observer host visits result)
    (there : visits[index]? = some visit) :
    let job := options.job output observer
    let earlier := account 0 ((visits.take index).filterMap job.finished?)
    visit.tally.bytes = lastTotal 0 earlier ∧ visit.host.reports = host.reports ++ earlier ∧
      (job.treat visit).host.reports <+: result.2.reports := by
  intro job earlier
  obtain ⟨_, told, reports, _⟩ := unpacks.accounted
  have opening := (Reader.openSession_told path options.reader host 0).reports
  cases unpacks with
  | refused => simp at there
  | obstructed => simp at there
  | @ran session between made _ final opened making goes =>
      obtain ⟨_, _, _, _, _, start⟩ := Reader.openSession_opened opened
      rw [opened, List.append_nil] at opening
      obtain ⟨totals, before⟩ := goes.accounted_before (.inl start) there
      have sums := before.sums visit.tally rfl
      have total : visit.tally.bytes =
          0 + (((visits.take index).filterMap job.finished?).map Finished.size).sum := by
        rw [sums.bytes, sums.sizes]
      have found : visit.host.reports = host.reports ++ earlier :=
        before.reported.trans (congrArg (· ++ earlier) opening)
      obtain ⟨_, treated⟩ := UnpackJob.treat_accounted job visit
        (goes.visited visit (List.mem_of_getElem? there)).2
      refine ⟨total.trans (lastTotal_account ..).symm, found, ?_⟩
      -- The reports of the run fall into those before the visit, its own, and those after it.
      obtain ⟨within, same⟩ := List.getElem?_eq_some_iff.mp there
      have split : visits.take index ++ ([visit] ++ visits.drop (index + 1)) = visits := by
        rw [List.singleton_append, ← same, ← List.drop_eq_getElem_cons within,
          List.take_append_drop]
      have whole := told.reports
      rw [reports, ← congrArg (List.filterMap job.finished?) split, List.filterMap_append,
        List.filterMap_append, account_append, account_append, ← total] at whole
      rw [treated.reported, found, whole, ← List.append_assoc, ← List.append_assoc]
      exact List.prefix_append ..

theorem Unpacks.broken (unpacks : Unpacks path output options observer host visits result)
    (member : visit ∈ visits) {error : UnpackError}
    (failed : ((options.job output observer).treat visit).value = .error error) :
    result.1 = .error error ∧
      result.2.cancelled = ((options.job output observer).treat visit).host.cancelled := by
  cases unpacks with
  | refused => cases member
  | obstructed => cases member
  | @ran _ _ _ _ final _ _ goes =>
      obtain ⟨value, last⟩ := goes.broken member failed
      have closed : (final.session.close final.host).2.2.cancelled = final.host.cancelled := rfl
      exact ⟨value, closed.trans (congrArg Host.cancelled last)⟩

end

end ArchiveTraversal
