import ArchiveTraversal.Proofs.Unpack.Heeding

/-!
What is left of an unpack once its cancel flag has gone up. Before that the members have been
written as they came, and after the last step there is only the release of the decoder. So the tree
is the one that all deliveries before the flag leave, with at most one more chunk at its end.
-/

namespace ArchiveTraversal

open Decoder

namespace UnpackJob

variable {job : UnpackJob} {tally next : Tally} {session : Session} {host : Host}

/-- A run that begins with a lowered flag winds up once the flag has gone up. -/
theorem Goes.winds {visits : List Visit} {final : Outcome (Except UnpackError Tally)}
    (goes : job.Goes tally session host visits final) (going : session.Going)
    (lowered : host.cancelled = false) :
    ∃ records, host.Adds final.host records ∧
      (final.host.cancelled = false → .cancelRaised ∉ records) ∧
      (final.host.cancelled = true → ∃ earlier last, visits = earlier ++ last ∧ last.length ≤ 1 ∧
        Raises session.handle.number records (job.writes earlier) (job.writes last)
          final.value) := by
  induction goes with
  | cancelled up => cases up.symm.trans lowered
  | @unreadable tally session host error _ failed =>
      obtain ⟨cancels, event, tells, asked, flag⟩ := going.advance_tells host
      rw [failed] at tells
      rw [lowered, Bool.false_or] at flag
      refine ⟨_, asked, ?_, ?_⟩
      · intro down
        rw [flag.symm.trans down]
        simp [raised]
      · intro up
        rw [flag.symm.trans up]
        cases tells
        exact ⟨[], [], rfl, Nat.zero_le 1, [], _, _, [], [], rfl, by simp, rfl, rfl,
          .unreadable ..⟩
  | @ended tally session host _ ended =>
      obtain ⟨cancels, event, tells, asked, flag⟩ := going.advance_tells host
      rw [ended] at tells
      rw [lowered, Bool.false_or] at flag
      refine ⟨_, asked, ?_, ?_⟩
      · intro down
        rw [flag.symm.trans down]
        simp [raised]
      · intro up
        rw [flag.symm.trans up]
        cases tells
        exact ⟨[], [], rfl, Nat.zero_le 1, [], _, _, [], [], rfl, by simp, rfl, rfl, .ended ..⟩
  | @stopped tally session host header error _ moved broken =>
      obtain ⟨records, adds, down, up⟩ := meets_treated job tally going lowered moved
      rw [broken] at up
      refine ⟨records, adds, fun stays => (down stays).1, fun isUp => ?_⟩
      refine ⟨[], [meets tally session host header], rfl, Nat.le_refl 1, ?_⟩
      rw [writes, writes, List.flatMap_singleton]
      exact up isUp
  | @member tally next session host header later final _ moved done goes ih =>
      obtain ⟨_, movedTo⟩ := Session.movedTo_of_advance moved
      have waits := meets_going moved done
      have number := job.meets_number tally session host header
      obtain ⟨records, adds, down, up⟩ := meets_treated job tally going lowered moved
      rw [done] at up down
      cases flag : (job.treat (meets tally session host header)).host.cancelled with
      | true =>
          -- The run stops before it asks for another header.
          obtain ⟨rfl, rfl⟩ := goes.of_raised flag
          refine ⟨records, adds, fun stays => ?_, fun _ => ?_⟩
          · cases flag.symm.trans stays
          · refine ⟨[], [meets tally session host header], rfl, Nat.le_refl 1, ?_⟩
            rw [writes, writes, List.flatMap_singleton]
            exact up flag
      | false =>
          obtain ⟨quiet, sizes⟩ := down flag
          obtain ⟨others, further, lower, higher⟩ := ih waits flag
          refine ⟨records ++ others, adds.trans further, ?_, ?_⟩
          · intro stays
            rw [List.mem_append]
            rintro (early | late)
            · exact quiet early
            · exact lower stays late
          · intro isUp
            obtain ⟨earlier, last, rfl, single, winds⟩ := higher isUp
            rw [number] at winds
            exact ⟨_ :: earlier, last, rfl, single, winds.later quiet (sizes next rfl)⟩

/-- A run in which the flag has gone up leaves what was written before, and what it winds up
with. -/
theorem Goes.appends_more {earlier last : List Visit} {kept more : List Write} {number : Nat}
    {step : Record} {tail : List Record} {result : Except UnpackError Tally}
    {final : Outcome (Except UnpackError Tally)}
    (goes : job.Goes tally session host (earlier ++ last) final) (single : last.length ≤ 1)
    (written : job.writes last = kept ++ more) (winds : WindsUp number step tail more result) :
    host.tree.Appends job.output final.host.tree ((earlier ++ last).map job.delivery)
      (job.writes earlier ++ kept) more := by
  rcases winds.at_most_one with rfl | ⟨write, rfl⟩
  · rw [List.append_nil] at written
    apply FileTree.Appends.nothing
    rw [goes.receives, ← written, writes, writes, writes, List.flatMap_append]
  · cases last with
    | nil => simp [writes] at written
    | cons visit others =>
        obtain rfl : others = [] := by simpa using single
        rw [writes, List.flatMap_singleton] at written
        exact goes.appends rfl written

end UnpackJob

theorem split_unique {Item : Type} {item : Item} {before early after late : List Item}
    (same : before ++ item :: after = early ++ item :: late) (first : item ∉ before)
    (firstToo : item ∉ early) : before = early ∧ after = late := by
  rcases List.append_eq_append_iff.mp same with
    ⟨between, split, rest⟩ | ⟨between, split, rest⟩
  · cases between with
    | nil =>
        cases rest
        exact ⟨by simpa using split.symm, rfl⟩
    | cons other more =>
        cases rest
        exact absurd (by simp [split]) firstToo
  · cases between with
    | nil =>
        cases rest
        exact ⟨by simpa using split, rfl⟩
    | cons other more =>
        cases rest
        exact absurd (by simp [split]) first

theorem quiet_setup {records : List Record} (setups : ∀ entry ∈ records, entry.isSetup = true) :
    .cancelRaised ∉ records ∧ records.filterMap Record.chunk? = [] := by
  refine ⟨fun member => ?_, ?_⟩
  · cases setups _ member
  · apply List.filterMap_eq_nil_iff.mpr
    exact fun entry member => Record.chunk?_of_setup (setups entry member)

section

variable {path output : Path} {options : UnpackOptions} {observer : Observer} {host : Host}
  {visits : List Visit} {result : Except UnpackError Tally × Host}

/-- Under a flag that was raised before the start the archive is opened, and the decoder freed. -/
theorem Unpacks.of_raised (unpacks : Unpacks path output options observer host visits result)
    (up : host.cancelled = true) :
    visits = [] ∧ ∃ opening closing,
      host.Adds ((Reader.new path options.reader).openSession host).2 opening ∧
      (∀ entry ∈ opening, entry.isSetup = true) ∧ host.Adds result.2 (opening ++ closing) ∧
      ((closing = [] ∧ result.2.tree = host.tree ∧
          ∃ reason, result.1 = .error (.archive (.opening path reason))) ∨
        ∃ number event, closing = [.call number .free, .event event] ∧
          result.2.tree = (host.tree.makeDirectories output).2 ∧ Session.TellsOfClosing event ∧
          (result.1 = .error .cancelled ∨ ∃ cause, result.1 = .error (.io cause))) := by
  obtain ⟨opening, opens, setups⟩ := Reader.openSession_adds path options.reader host
  have kept := (Reader.new path options.reader).openSession_tree host
  cases unpacks with
  | refused refused =>
      obtain ⟨reason, rfl⟩ := Reader.openSession_refused refused
      rw [refused] at kept
      refine ⟨rfl, opening, [], opens, setups, ?_, .inl ⟨rfl, kept, reason, rfl⟩⟩
      rw [refused] at opens
      rwa [List.append_nil]
  | @obstructed session between error made opened making =>
      rw [opened] at opens kept
      rw [show between.tree = host.tree from kept] at making
      obtain ⟨event, tells, closes, tree⟩ := Session.close_adds_over opens session made
      rw [opened, making]
      exact ⟨rfl, opening, _, opens, setups, closes,
        .inr ⟨_, event, rfl, tree, tells, .inr ⟨_, rfl⟩⟩⟩
  | @ran session between made _ final opened making goes =>
      have flag := Reader.openSession_cancelled path options.reader host
      rw [opened] at opens kept flag
      rw [show between.tree = host.tree from kept] at making
      obtain ⟨rfl, rfl⟩ := goes.of_raised (flag.trans up)
      obtain ⟨event, tells, closes, tree⟩ := Session.close_adds_over opens session made
      rw [opened, making]
      exact ⟨rfl, opening, _, opens, setups, closes,
        .inr ⟨_, event, rfl, tree, tells, .inl rfl⟩⟩

theorem Unpacks.winds (unpacks : Unpacks path output options observer host visits result)
    (lowered : host.cancelled = false) :
    ∃ records, host.Adds result.2 records ∧
      (result.2.cancelled = true ↔ .cancelRaised ∈ records) ∧
      ∀ early late, records = early ++ .cancelRaised :: late → .cancelRaised ∉ early →
        ∃ number before step tail closing seen more, early = before ++ [step] ∧
          late = tail ++ [.call number .free, .event closing] ∧
          Session.TellsOfClosing closing ∧
          (options.job output observer).writes visits = seen ++ more ∧
          early.filterMap Record.chunk? = seen.map Write.size ∧
          WindsUp number step tail more result.1 ∧
          (host.tree.makeDirectories output).2.Appends output result.2.tree
            (visits.map (options.job output observer).delivery) seen more := by
  obtain ⟨opening, opens, setups⟩ := Reader.openSession_adds path options.reader host
  have flag := (Reader.openSession_cancelled path options.reader host).trans lowered
  obtain ⟨quiet, silent⟩ := quiet_setup setups
  have kept := (Reader.new path options.reader).openSession_tree host
  -- Where the flag is never raised there is nothing to show.
  have never : ∀ {after : Host} {records : List Record}, after.cancelled = false →
      .cancelRaised ∉ records → (after.cancelled = true ↔ .cancelRaised ∈ records) := by
    intro after records down absent
    rw [down]
    exact ⟨fun up => absurd up Bool.false_ne_true, fun present => absurd present absent⟩
  cases unpacks with
  | refused refused =>
      rw [refused] at opens flag
      refine ⟨opening, opens, never flag quiet, ?_⟩
      intro early late split _
      exact absurd (by simp [split]) quiet
  | @obstructed session between error made opened =>
      rw [opened] at opens flag
      obtain ⟨event, tells, closes, _⟩ := Session.close_adds_over opens session made
      have all : .cancelRaised ∉ opening ++ [.call session.handle.number .free, .event event] := by
        simpa using quiet
      refine ⟨_, closes, never flag all, ?_⟩
      intro early late split _
      exact absurd (by simp [split]) all
  | @ran session between made _ final opened making goes =>
      obtain ⟨_, _, _, _, _, start⟩ := Reader.openSession_opened opened
      rw [opened] at opens flag kept
      rw [show between.tree = host.tree from kept] at making
      obtain ⟨records, adds, down, up⟩ := goes.winds (.inl start) flag
      obtain ⟨event, tells, closes⟩ := final.session.close_adds final.host
      rw [goes.number] at closes
      have whole := opens.trans (adds.trans closes)
      have closed : (final.session.close final.host).2.2.cancelled = final.host.cancelled := rfl
      refine ⟨_, whole, ?_, ?_⟩
      · cases raised : final.host.cancelled with
        | false =>
            apply never (closed.trans raised)
            simp [quiet, down raised]
        | true =>
            obtain ⟨_, _, _, _, before, step, tail, _, _, split, _⟩ := up raised
            rw [closed, split]
            simp [raised]
      · intro early late split first
        cases raised : final.host.cancelled with
        | false =>
            have absent : .cancelRaised ∉ opening ++
                (records ++ [.call session.handle.number .free, .event event]) := by
              simp [quiet, down raised]
            exact absurd (by simp [split]) absent
        | true =>
            obtain ⟨earlier, last, rfl, single, before, step, tail, kept, more, once, before_,
              written, sizes, winds⟩ := up raised
            have same : (opening ++ (before ++ [step])) ++ .cancelRaised ::
                (tail ++ [.call session.handle.number .free, .event event]) =
                early ++ .cancelRaised :: late := by
              rw [← split, once]
              simp
            obtain ⟨rfl, rfl⟩ := split_unique same
              (fun member => (List.mem_append.mp member).elim quiet before_) first
            refine ⟨_, opening ++ before, step, tail, event,
              (options.job output observer).writes earlier ++ kept, more,
              (List.append_assoc ..).symm, rfl, tells, ?_, ?_, winds, ?_⟩
            · rw [UnpackJob.writes, List.flatMap_append, List.append_assoc, ← written]
              rfl
            · rw [List.filterMap_append, silent, sizes, List.nil_append]
            · rw [making, (final.session.close_extends final.host).tree]
              exact goes.appends_more single written winds

end

end ArchiveTraversal
