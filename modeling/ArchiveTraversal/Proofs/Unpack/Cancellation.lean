import ArchiveTraversal.Proofs.Unpack.Declining
import ArchiveTraversal.Proofs.Unpack.WindingUp

/-!
Cancelling an unpack, by its flag or by its observer. Whatever was written by then is kept, and it
is followed by one chunk at most.
-/

namespace ArchiveTraversal

open Decoder

/-- What a raised cancel flag leaves of an unpack. If it is raised before the start, the archive is
opened and the decoder freed, and there is nothing new on the disk but the output directory. If it
goes up on the way, the step in which it does is brought to its end: in this the decoder is asked
for nothing more, and at most the chunk that is on its way is put at the end of its file, after all
that had been written before; then the decoder is freed. Once the observer declines to go on, the
decoder is freed at once. -/
theorem unpackArchive_cancelled (path output : Path) (options : UnpackOptions)
    (observer : Observer) (host : Host) :
    let ran := unpackArchive path output options observer host
    let writes := unpackWrites path output options observer host
    let deliveries := unpackDeliveries path output options observer host
    let made := (host.tree.makeDirectories output).2
    ∃ records, host.Adds ran.2 records ∧
      (host.cancelled = true → writes = [] ∧ ∃ opening closing,
        host.Adds ((Reader.new path options.reader).openSession host).2 opening ∧
        (∀ entry ∈ opening, entry.isSetup = true) ∧ records = opening ++ closing ∧
        ((closing = [] ∧ ran.2.tree = host.tree ∧
            ∃ reason, ran.1 = .error (.archive (.opening path reason))) ∨
          ∃ number event, closing = [.call number .free, .event event] ∧ ran.2.tree = made ∧
            Session.TellsOfClosing event ∧
            (ran.1 = .error .cancelled ∨ ∃ cause, ran.1 = .error (.io cause)))) ∧
      (host.cancelled = false → (ran.2.cancelled = true ↔ .cancelRaised ∈ records) ∧
        ∀ early late, records = early ++ .cancelRaised :: late → .cancelRaised ∉ early →
          ∃ number before step tail closing seen more, early = before ++ [step] ∧
            late = tail ++ [.call number .free, .event closing] ∧
            tail.filterMap Record.call? = [] ∧ Session.TellsOfClosing closing ∧
            writes = seen ++ more ∧ early.filterMap Record.chunk? = seen.map Write.size ∧
            WindsUp number step tail more ran.1 ∧
            made.Appends output ran.2.tree deliveries seen more) ∧
      ∀ early name total late, records = early ++ .progress name total :: late →
        let reaction := observer ((early.filterMap Record.report?).length + 1) name total
        reaction.proceed = false →
          ran.1 = .error .cancelled ∧
            made.receiveAll output deliveries = (writes, ran.2.tree) ∧
            ∃ number closing, Session.TellsOfClosing closing ∧
              late = raised reaction.raisesCancel ++ [.call number .free, .event closing] := by
  intro ran writes deliveries made
  have unpacks := unpackArchive_unpacks path output options observer host
  have delivered : deliveries = _ := unpacks.deliveries
  have written : writes = _ := unpacks.writes
  obtain ⟨records, adds, declines⟩ := unpacks.declines
  rw [delivered, written]
  -- All three accounts are of the same records, as a journal grows in one way only.
  refine ⟨records, adds, ?_, ?_, declines⟩
  · intro up
    obtain ⟨nothing, opening, closing, opens, setups, all, ends⟩ := unpacks.of_raised up
    refine ⟨?_, opening, closing, opens, setups, adds.unique all, ends⟩
    rw [nothing]
    rfl
  · intro lowered
    obtain ⟨others, all, flag, winds⟩ := unpacks.winds lowered
    rw [← adds.unique all] at flag winds
    refine ⟨flag, fun early late split first => ?_⟩
    obtain ⟨number, before, step, tail, closing, seen, more, here, after, tells, all, sizes,
      last, appends⟩ := winds early late split first
    exact ⟨number, before, step, tail, closing, seen, more, here, after, last.calls, tells, all,
      sizes, last, appends⟩

/-- Two files, the second of three pieces, of which the middle one raises the flag: that one is
still written, after the first, and the last is never asked for. An observer that declines to go on
ends the run after its first file, and a flag that was raised before the start lets no file be
made. -/
theorem cancelled_in_second_file :
    let archive : Path := [0x78]
    let output : Path := [0x6F]
    let header (name : Name) : Header := ⟨some name, none, 2, true, 0o100644⟩
    let script : Script :=
      { headers := [{ header := some (header [0x61]), data := [{ serving := .content [1] }] },
          { header := some (header [0x62]),
            data := [{ serving := .content [2] }, { serving := .content [3, 4], cancels := true },
              { serving := .content [5] }] }] }
    let host (up : Bool) : Host :=
      { decoders := [some script], tree := { entries := [(archive, .file [0])] }, cancelled := up }
    let ran (up proceed : Bool) :=
      unpackArchive archive output {} (fun _ _ _ => { proceed := proceed }) (host up)
    let written (up : Bool) :=
      unpackWrites archive output {} (fun _ _ _ => {}) (host up)
    (∃ seen write, written false = seen ++ [write] ∧ seen.map Write.size = [1, 1] ∧
      write.size = 2 ∧ (ran false true).1 = .error .cancelled ∧
      (ran false true).2.tree.at? [output, [0x62]] = some (.file [2, 3, 4])) ∧
      written true = [] ∧ (ran true true).2.tree = ((host true).tree.makeDirectories output).2 ∧
      (ran false false).1 = .error .cancelled ∧
      (ran false false).2.tree.at? [output, [0x62]] = none := by
  intro archive output header script host ran written
  obtain ⟨records, adds, _, winds, _⟩ :=
    unpackArchive_cancelled archive output {} (fun _ _ _ => {}) (host false)
  obtain ⟨_, _, before, _⟩ :=
    unpackArchive_cancelled archive output {} (fun _ _ _ => {}) (host true)
  obtain ⟨others, further, _, _, declines⟩ :=
    unpackArchive_cancelled archive output {} (fun _ _ _ => { proceed := false }) (host false)
  have all : records = (ran false true).2.journal.toList := adds.symm
  have rest : others = (ran false false).2.journal.toList := further.symm
  have stopped : (ran false true).1 = .error .cancelled := by cbv
  refine ⟨?_, (before rfl).1, ?_, ?_, by cbv⟩
  · have split : records = records.take 18 ++ .cancelRaised :: records.drop 19 := by
      rw [all]
      cbv
    have late : records.drop 19 =
        [.event (.chunkRead 2), .call 0 .free, .event (.closed archive 2)] := by
      rw [all]
      cbv
    have sizes : (records.take 18).filterMap Record.chunk? = [1, 1] := by
      rw [all]
      cbv
    have first : .cancelRaised ∉ records.take 18 := by
      rw [all]
      decide +kernel
    obtain ⟨number, _, step, tail, closing, seen, more, _, after, _, _, same, seenSizes, last, _⟩ :=
      (winds rfl).2 _ _ split first
    rw [late] at after
    have told : [Record.event (.chunkRead 2)] = tail := List.append_inj_left' after rfl
    have ends : (unpackArchive archive output {} (fun _ _ _ => {}) (host false)).1 =
      .error .cancelled := stopped
    rw [ends] at last
    rw [sizes] at seenSizes
    cases last with
    | written capacity write something =>
        injection told with entry
        injection entry with event
        injection event with size
        exact ⟨seen, write, same, seenSizes.symm, size.symm, stopped, by cbv⟩
    | _ => cases told
  · obtain ⟨_, _, closing, _, _, _, ⟨_, _, _, refused⟩ | ⟨_, _, _, tree, _⟩⟩ := before rfl
    · have opens : (ran true true).1 = .error .cancelled := by cbv
      cases opens.symm.trans refused
    · exact tree
  · have split : others = others.take 12 ++ .progress "a" 1 :: others.drop 13 := by
      rw [rest]
      cbv
    exact (declines _ _ _ _ split rfl).1

end ArchiveTraversal
