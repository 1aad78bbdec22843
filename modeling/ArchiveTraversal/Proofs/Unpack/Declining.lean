import ArchiveTraversal.Proofs.Unpack.Delivery

/-!
What is left of an unpack once its observer declines to go on. It is asked after each file; when it
declines, nothing has been begun that would have to be brought to an end, so the decoder is freed at
once and the tree is as it stood.
-/

namespace ArchiveTraversal

open Decoder

theorem silent_raised (cancels : Bool) : (raised cancels).filterMap Record.report? = [] := by
  cases cancels <;> rfl

theorem one_report (name : String) (total : Nat) (cancels : Bool) :
    ((Record.progress name total :: raised cancels).filterMap Record.report?).length = 1 := by
  cases cancels <;> rfl

theorem Session.Going.advance_silent {session : Session} (going : session.Going) (host : Host) :
    ∃ records, host.Adds (session.advance host).host records ∧
      records.filterMap Record.report? = [] := by
  obtain ⟨cancels, event, _, asked⟩ := going.advance_adds host
  refine ⟨_, asked, ?_⟩
  rw [List.cons_append, List.filterMap_cons_none rfl, List.filterMap_append, silent_raised]
  rfl

namespace UnpackJob

variable {job : UnpackJob} {tally next : Tally} {session : Session} {host : Host}

/-- Once the observer declines to go on, there is nothing but the flag that it may have raised, and
the run is cancelled. Reports are numbered from so many on. -/
def Declines (job : UnpackJob) (start : Nat) (records : List Record)
    (result : Except UnpackError Tally) : Prop :=
  ∀ early name total late, records = early ++ .progress name total :: late →
    let reaction := job.observer (start + (early.filterMap Record.report?).length + 1) name total
    reaction.proceed = false →
      result = .error .cancelled ∧ late = raised reaction.raisesCancel

namespace Declines

variable {start : Nat} {records later : List Record} {result : Except UnpackError Tally}

theorem of_silent (silent : records.filterMap Record.report? = []) :
    job.Declines start records result := by
  intro early name total late split
  rw [split, List.filterMap_append] at silent
  cases (List.append_eq_nil_iff.mp silent).2

theorem append (first : job.Declines start records (.ok next))
    (second : job.Declines (start + (records.filterMap Record.report?).length) later result) :
    job.Declines start (records ++ later) result := by
  intro early name total late split
  rcases List.append_eq_append_iff.mp split with
    ⟨between, before, after⟩ | ⟨between, before, after⟩
  · rw [before, List.filterMap_append, List.length_append, ← Nat.add_assoc]
    exact second between name total late after
  · cases between with
    | nil =>
        rw [List.append_nil] at before
        rw [← before]
        exact second [] name total late after.symm
    | cons entry rest =>
        cases after
        intro reaction declined
        cases (first early name total rest before declined).1

theorem after_silent {first : List Record} (silent : first.filterMap Record.report? = [])
    (second : job.Declines start later result) : job.Declines start (first ++ later) result := by
  apply append (of_silent silent : job.Declines start first (.ok {}))
  rw [silent]
  exact second

theorem of_report (job : UnpackJob) (tally : Tally) (name : String) (host : Host)
    (counted : tally.files = start + 1) :
    job.Declines start (.progress name tally.bytes ::
        raised (job.observer tally.files name tally.bytes).raisesCancel)
      (job.report name tally host).1 := by
  intro early other total late split
  cases early with
  | nil =>
      cases split
      intro reaction declined
      have refused : (job.observer tally.files name tally.bytes).proceed = false := by
        rw [counted]
        exact declined
      rw [report, refused, counted]
      exact ⟨rfl, rfl⟩
  | cons entry rest =>
      have unreported : Record.progress other total ∈ raised
          (job.observer tally.files name tally.bytes).raisesCancel := by
        rw [(List.cons.inj split).2]
        simp
      cases Record.eq_of_raised unreported

end Declines

theorem silent_data {records : List Record} (data : ∀ entry ∈ records, entry.isData = true) :
    records.filterMap Record.report? = [] := by
  apply List.filterMap_eq_nil_iff.mpr
  intro entry member
  have is := data entry member
  cases entry with
  | progress => cases is
  | _ => rfl

theorem silent_events (events : List Event) :
    (events.map Record.event).filterMap Record.report? = [] := by
  rw [List.filterMap_map]
  exact List.filterMap_eq_nil_iff.mpr fun _ _ => rfl

theorem treat_declines (job : UnpackJob) (visit : Visit)
    (onData : visit.info.isDirectory = false → visit.session.OnData) :
    ∃ records, visit.host.Adds (job.treat visit).host records ∧
      (∀ next, (job.treat visit).value = .ok next →
        next.files = visit.tally.files + (records.filterMap Record.report?).length) ∧
      job.Declines visit.tally.files records (job.treat visit).value := by
  rcases job.treat_cases visit with
    ⟨value, after, treated, readies, _, ends⟩ | ⟨location, ready, treated, readies, found⟩
  · obtain ⟨events, adds, _⟩ := readies.tells
    rw [treated]
    refine ⟨_, adds, ?_, .of_silent (silent_events events)⟩
    intro next ok
    rcases ends with ⟨last, same, files, _⟩ | ⟨cause, failed⟩
    · cases same.symm.trans ok
      rw [silent_events, files]
      rfl
    · cases failed.symm.trans ok
  · obtain ⟨events, logged, _⟩ := readies.tells
    obtain ⟨records, _, adds, data, _⟩ := (onData (treat_of_target job found).1).forEachChunk_data
      job.writer { total := visit.tally.bytes } ready
    have silent : (events.map Record.event ++ records).filterMap Record.report? = [] := by
      rw [List.filterMap_append, silent_events, silent_data data, List.append_nil]
    have told : visit.host.Adds (job.filled location visit.tally visit.session ready)
        (events.map .event ++ records) := logged.trans adds
    rw [treated]
    have fills := job.fillFile_fills visit.tally visit.session ready visit.info.path location
    generalize job.fillFile visit.info.path location visit.tally visit.session ready = outcome at *
    cases fills with
    | unreadable => exact ⟨_, told, fun _ ok => (by cases ok), .of_silent silent⟩
    | stopped => exact ⟨_, told, fun _ ok => (by cases ok), .of_silent silent⟩
    | complete =>
        have wrote := told.trans (Host.event_adds _ (.memberWritten visit.info.path))
        have silentToo : (events.map Record.event ++ records ++
            [Record.event (.memberWritten visit.info.path)]).filterMap Record.report? = [] := by
          rw [List.filterMap_append, silent]
          rfl
        refine ⟨_, wrote.trans (job.report_adds ..), ?_, ?_⟩
        · intro next ok
          rw [List.filterMap_append, silentToo, List.nil_append, one_report]
          dsimp only [report] at ok
          split at ok
          · cases ok
            rfl
          · cases ok
        · apply Declines.after_silent silentToo
          exact .of_report job (job.counted visit.tally visit.session ready) visit.info.path
            ((job.filled location visit.tally visit.session ready).event
              (.memberWritten visit.info.path)) rfl

/-- When the observer declines to go on after some report, that is the end of the run. -/
theorem Goes.declines {visits : List Visit} {final : Outcome (Except UnpackError Tally)}
    (goes : job.Goes tally session host visits final) (going : session.Going) :
    ∃ records, host.Adds final.host records ∧ job.Declines tally.files records final.value := by
  induction goes with
  | cancelled => exact ⟨[], .refl _, .of_silent rfl⟩
  | unreadable =>
      obtain ⟨records, asked, silent⟩ := going.advance_silent _
      exact ⟨records, asked, .of_silent silent⟩
  | ended =>
      obtain ⟨records, asked, silent⟩ := going.advance_silent _
      exact ⟨records, asked, .of_silent silent⟩
  | @stopped tally session host header error _ moved broken =>
      obtain ⟨_, movedTo⟩ := Session.movedTo_of_advance moved
      obtain ⟨first, asked, silent⟩ := going.advance_silent _
      obtain ⟨records, adds, _, declines⟩ :=
        treat_declines job (meets tally session host header) movedTo.onData
      rw [broken] at declines
      exact ⟨first ++ records, asked.trans adds, .after_silent silent declines⟩
  | @member tally next session host header later final _ moved done goes ih =>
      obtain ⟨_, movedTo⟩ := Session.movedTo_of_advance moved
      have waits := meets_going moved done
      obtain ⟨first, asked, silent⟩ := going.advance_silent _
      obtain ⟨records, adds, counts, declines⟩ :=
        treat_declines job (meets tally session host header) movedTo.onData
      obtain ⟨others, further, onward⟩ := ih waits
      rw [done] at declines
      rw [counts next done] at onward
      refine ⟨first ++ (records ++ others), asked.trans (adds.trans further), ?_⟩
      exact .after_silent silent (declines.append onward)

end UnpackJob

theorem silent_setup {records : List Record} (setups : ∀ entry ∈ records, entry.isSetup = true) :
    records.filterMap Record.report? = [] := by
  apply List.filterMap_eq_nil_iff.mpr
  intro entry member
  rcases Record.setup_cases (setups entry member) with ⟨_, _, rfl⟩ | ⟨_, _, _, rfl⟩ <;> rfl

theorem Unpacks.declines {path output : Path} {options : UnpackOptions} {observer : Observer}
    {host : Host} {visits : List Visit} {result : Except UnpackError Tally × Host}
    (unpacks : Unpacks path output options observer host visits result) :
    ∃ records, host.Adds result.2 records ∧
      ∀ early name total late, records = early ++ .progress name total :: late →
        let reaction := observer ((early.filterMap Record.report?).length + 1) name total
        reaction.proceed = false →
          result.1 = .error .cancelled ∧
            (host.tree.makeDirectories output).2.receiveAll output
                (visits.map (options.job output observer).delivery) =
              ((options.job output observer).writes visits, result.2.tree) ∧
            ∃ number closing, Session.TellsOfClosing closing ∧
              late = raised reaction.raisesCancel ++ [.call number .free, .event closing] := by
  have kept := (Reader.new path options.reader).openSession_tree host
  obtain ⟨opening, opens, setups⟩ := Reader.openSession_adds path options.reader host
  have silent := silent_setup setups
  -- Where nothing is reported nobody is asked.
  have unreported : ∀ {records : List Record} {early late : List Record} {name : String}
      {total : Nat}, records.filterMap Record.report? = [] →
      records ≠ early ++ .progress name total :: late := by
    intro records early late name total none split
    rw [split, List.filterMap_append] at none
    cases (List.append_eq_nil_iff.mp none).2
  cases unpacks with
  | refused refused =>
      rw [refused] at opens
      exact ⟨opening, opens, fun _ _ _ _ split => absurd split (unreported silent)⟩
  | @obstructed session between error made opened =>
      rw [opened] at opens
      obtain ⟨event, _, closes, _⟩ := Session.close_adds_over opens session made
      refine ⟨_, closes, fun _ _ _ _ split => absurd split (unreported ?_)⟩
      rw [List.filterMap_append, silent]
      rfl
  | @ran session between made _ final opened making goes =>
      obtain ⟨_, _, _, _, _, start⟩ := Reader.openSession_opened opened
      rw [opened] at opens kept
      rw [show between.tree = host.tree from kept] at making
      obtain ⟨records, adds, declines⟩ := goes.declines (.inl start)
      obtain ⟨event, tells, closes⟩ := final.session.close_adds final.host
      refine ⟨_, (opens.trans adds).trans closes, ?_⟩
      intro early name total late split reaction declined
      have whole : (options.job output observer).Declines 0 (opening ++ records) final.value :=
        .after_silent silent declines
      -- The report is one of the run: to free the decoder makes none.
      rcases List.append_eq_append_iff.mp split with
        ⟨between, _, after⟩ | ⟨between, before, after⟩
      · exact absurd after (unreported rfl)
      · cases between with
        | nil => cases after
        | cons entry rest =>
            cases after
            have here := whole early name total rest before
            rw [Nat.zero_add] at here
            obtain ⟨failed, only⟩ := here declined
            refine ⟨failed, ?_, final.session.handle.number, event, tells,
              congrArg (· ++ _) only⟩
            rw [making, (final.session.close_extends final.host).tree]
            exact goes.receives

end ArchiveTraversal
