import ArchiveTraversal.Proofs.FileTree.Again
import ArchiveTraversal.Proofs.Unpack.Heeding
import ArchiveTraversal.Proofs.Unpack.PassedOver
import ArchiveTraversal.Proofs.Unpack.Pouring
import ArchiveTraversal.Proofs.Unpack.Result

/-!
A member that has been unpacked and is come to once more, later in the same run or in another one
over the same archive. What was made for it is there: no file has to give way and no directory has
to be made. It is treated as it was, but that a file is passed over where a directory has come to
stand since.
-/

namespace ArchiveTraversal

open Decoder FileTree

/-- What a member comes down to once more. A directory may have taken the place of a file. -/
inductive Preparation.Recurs : Preparation → Preparation → Prop
  | same (preparation : Preparation) : Recurs preparation preparation
  | taken (location : Location) : Recurs (.file location) .blocked

theorem Grounded.keeps {output : Path} {before after : FileTree} (grounded : Grounded output before)
    (keeps : Keeps before after) : Grounded output after :=
  grounded.imp_right fun ⟨base, named⟩ => ⟨base, directory?_keeps keeps named⟩

theorem grounded_parent {tree : FileTree} {path : Path} {base : Location}
    (named : tree.directory? path = some base) : Grounded (path.parent?.getD []) tree := by
  rcases List.eq_nil_or_concat path.names with none | ⟨above, last, spelled⟩
  · cases found : path.parent? with
    | none => exact .inl rfl
    | some parent => exact .inl (Path.parent?_of_no_names none found)
  · rw [List.concat_eq_append] at spelled
    obtain ⟨parent, found, names, absolute, _⟩ := Path.parent?_of_names spelled
    rw [found, Option.getD_some]
    exact .inr (directory?_above named absolute (by rw [spelled, names]))

namespace Host

variable {host after other : Host}

theorem clearFiles_of_none {paths : List Path}
    (none : ∀ path ∈ paths, host.tree.isFile path = false) :
    host.clearFiles paths = (.ok (), host) := by
  induction paths with
  | nil => rfl
  | cons path deeper ih =>
      simp only [clearFiles, none path List.mem_cons_self]
      exact ih fun other member => none other (List.mem_cons_of_mem path member)

theorem clearFileAncestors_of_grounded {output relative : Path} {info : MemberInfo}
    (safe : Safety.destination info = .ok relative)
    (grounded : Grounded ((output.join relative).parent?.getD []) host.tree) :
    host.clearFileAncestors output relative = (.ok (), host) := by
  obtain ⟨nonempty, _⟩ := Safety.destination_ok safe
  have spells := Safety.spells_destination safe output
  obtain ⟨above, last, ends⟩ := (List.eq_nil_or_concat relative.names).resolve_left nonempty
  rw [List.concat_eq_append] at ends
  obtain ⟨parent, found, spellsParent⟩ := (ends ▸ spells).parent?
  rw [found, Option.getD_some] at grounded
  apply clearFiles_of_none
  intro path member
  obtain ⟨upper, some, ⟨lower, split⟩, _, spellsPath⟩ := leading_leadingTo safe ends path member
  obtain ⟨base, named⟩ := grounded.resolve_left (by
    rintro rfl
    have none := (List.append_eq_nil_iff.mp spellsParent.names.symm).2
    exact some (List.append_eq_nil_iff.mp (split.trans none)).1)
  obtain ⟨there, leads⟩ := directory?_above named
    (spellsPath.absolute.trans spellsParent.absolute.symm)
    (by rw [spellsParent.names, spellsPath.names, ← split, List.append_assoc])
  exact not_isFile_of_named leads

theorem makeDirectories_again {path : Path} (making : host.makeDirectories path = (.ok (), after))
    (keeps : Keeps after.tree other.tree) : other.makeDirectories path = (.ok (), other) := by
  simp only [makeDirectories, FileTree.makeDirectories_again (makeDirectories_made making).1 keeps]

theorem placeDirectory_resolves {path : Path} (nonempty : path ≠ [])
    (placing : host.placeDirectory path = (.ok (), after)) :
    ∃ base, after.tree.Resolves path base := by
  unfold placeDirectory at placing
  split at placing
  · split at placing
    · cases placing
    · exact makeDirectories_resolves nonempty (makeDirectories_made placing).1
  · exact makeDirectories_resolves nonempty (makeDirectories_made placing).1

theorem placeDirectory_of_resolves {path : Path} {base : Location}
    (resolves : host.tree.Resolves path base) : host.placeDirectory path = (.ok (), host) := by
  simp only [placeDirectory, not_isFile_of_named (resolves_iff.mp resolves).2, makeDirectories,
    resolves.makeDirectories, Bool.false_eq_true, ↓reduceIte]

/-- What has been prepared without an obstacle comes out alike once more. -/
theorem prepare_again {output : Path} {info : MemberInfo}
    (unobstructed : ∀ error, (host.prepare output info).1 ≠ .obstructed error)
    (lasts : Lasts (host.prepare output info).2.tree other.tree) :
    (host.prepare output info).1.Recurs (other.prepare output info).1 := by
  generalize prepared : host.prepare output info = outcome at *
  obtain ⟨preparation, after⟩ := outcome
  dsimp only at unobstructed lasts ⊢
  unfold prepare at prepared ⊢
  split at prepared
  · cases prepared
    exact .same _
  rename_i relative safe
  have nonempty : output.join relative ≠ [] := by
    intro empty
    have names := (Safety.spells_destination safe output).names
    rw [empty] at names
    exact (Safety.destination_ok safe).1 (List.append_eq_nil_iff.mp names.symm).2
  split at prepared
  · cases prepared
    exact absurd rfl (unobstructed _)
  split at prepared
  -- A directory is there, and so are those that it is in.
  · rename_i is
    split at prepared
    · cases prepared
      exact absurd rfl (unobstructed _)
    rename_i placing
    cases prepared
    obtain ⟨base, placed⟩ := placeDirectory_resolves nonempty placing
    have resolves := placed.keeps lasts.toKeeps
    have cleared := clearFileAncestors_of_grounded safe
      (grounded_parent (resolves_iff.mp resolves).2)
    simp only [cleared, is, placeDirectory_of_resolves resolves, ↓reduceIte]
    exact .same _
  rename_i regular
  split at prepared
  · cases prepared
    exact absurd rfl (unobstructed _)
  rename_i made making
  have grounded := grounded_of_made (makeDirectories_made making).1
  split at prepared
  · rename_i stands
    cases prepared
    obtain ⟨base, there⟩ := isDirectory_resolves stands
    have cleared := clearFileAncestors_of_grounded safe
      (grounded.keeps lasts.toKeeps)
    simp only [cleared, regular, makeDirectories_again making lasts.toKeeps,
      (there.keeps lasts.toKeeps).isDirectory, Bool.false_eq_true, ↓reduceIte]
    exact .same _
  split at prepared
  · cases prepared
    exact absurd rfl (unobstructed _)
  rename_i location opened creating
  cases prepared
  have keeps : Keeps made.tree other.tree := (createFile_keeps creating).trans lasts.toKeeps
  have cleared := clearFileAncestors_of_grounded safe (grounded.keeps keeps)
  simp only [cleared, regular, makeDirectories_again making keeps, Bool.false_eq_true,
    ↓reduceIte]
  rcases createFile_again creating lasts with stands | ⟨free, _, recreating⟩
  · simp only [stands, ↓reduceIte]
    exact .taken location
  · simp only [free, recreating, Bool.false_eq_true, ↓reduceIte]
    exact .same _

end Host

namespace Session

/-- Two sessions on the same member, with the same setup and the same data left. -/
structure Rereads (one other : Session) : Prop where
  setup : other.setup = one.setup
  data : other.handle.data = one.handle.data
  onData : one.OnData
  onDataToo : other.OnData

variable {one other : Session} {host otherHost : Host}

theorem Rereads.reply (rereads : one.Rereads other) : other.reply = one.reply := by
  rw [Session.reply, Session.reply, rereads.setup, (Handle.readData_congr rereads.data _).1]

theorem Rereads.readChunk (rereads : one.Rereads other) {chunk : Bytes}
    (read : (one.readChunk host).value = .ok chunk) (otherHost : Host) :
    (other.readChunk otherHost).value = .ok chunk ∧
      (one.readChunk host).session.Rereads (other.readChunk otherHost).session := by
  have readToo : (other.readChunk otherHost).value = .ok chunk := by
    rw [rereads.onData.readChunk_eq] at read
    rw [rereads.onDataToo.readChunk_eq, rereads.reply]
    split at read
    · cases read
    · rename_i enough
      rw [if_neg enough]
      exact read
  obtain ⟨_, _, handle, setup, stays⟩ := rereads.onData.readChunk_ok read
  obtain ⟨_, _, handleToo, setupToo, staysToo⟩ := rereads.onDataToo.readChunk_ok readToo
  refine ⟨readToo, ?_, ?_, stays, staysToo⟩
  · rw [setup, setupToo, rereads.setup]
  · rw [handle, handleToo, rereads.setup]
    exact (Handle.readData_congr rereads.data _).2.1

theorem Rereads.readChunk_flag (rereads : one.Rereads other)
    (flag : otherHost.cancelled = host.cancelled) :
    (other.readChunk otherHost).host.cancelled = (one.readChunk host).host.cancelled := by
  rw [rereads.onData.readChunk_flag, rereads.onDataToo.readChunk_flag, rereads.reply, flag]

theorem Rereads.forEachChunk (rereads : one.Rereads other) (job : UnpackJob)
    (written fewer : Written) (flag : otherHost.cancelled = host.cancelled)
    (less : fewer.total ≤ written.total)
    (complete : (one.forEachChunk job.writer written host).value.1 = .complete) :
    let again := other.forEachChunk job.writer fewer otherHost
    again.value.1 = .complete ∧
      again.value.2.total ≤ (one.forEachChunk job.writer written host).value.2.total ∧
      again.host.cancelled = (one.forEachChunk job.writer written host).host.cancelled := by
  intro again
  -- The flags and the data stay the same, and the other total stays the lesser.
  fun_induction Session.forEachChunk job.writer written one host
      generalizing other otherHost fewer with
  | case1 => cases complete
  | case2 => cases complete
  | case3 written one host goesOn _ =>
      rename_i empty
      have goesOnToo : job.writer.halt otherHost = none := by
        rw [job.writer_halts_iff] at goesOn ⊢
        exact flag.trans goesOn
      have read := (rereads.readChunk empty otherHost).1
      have flagAfter := rereads.readChunk_flag flag
      simp only [again, forEachChunk_step _ _ job.writer fewer goesOnToo, read]
      exact ⟨trivial, less, flagAfter⟩
  | case4 => cases complete
  | case5 written one host goesOn _ byte more filled next accepted =>
      rename_i ih
      have goesOnToo : job.writer.halt otherHost = none := by
        rw [job.writer_halts_iff] at goesOn ⊢
        exact flag.trans goesOn
      obtain ⟨read, onward⟩ := rereads.readChunk filled otherHost
      have flagAfter := rereads.readChunk_flag flag
      rw [job.writer_visit] at accepted
      split at accepted
      · cases accepted
      rename_i fits
      cases accepted
      have fitsToo : ¬ job.sizeLimit.any (· < fewer.total + (byte :: more).length) := by
        cases limit : job.sizeLimit with
        | none => simp
        | some bound =>
            simp only [limit, Option.any_some, decide_eq_true_eq] at fits ⊢
            omega
      simp only [again, forEachChunk_step _ _ job.writer fewer goesOnToo, read, job.writer_visit,
        if_neg fitsToo]
      exact ih onward _ flagAfter (Nat.add_le_add_right less _) complete

end Session

structure Tally.Repeats (first again : Tally) : Prop where
  directories : again.directories = first.directories
  files : again.files ≤ first.files
  bytes : again.bytes ≤ first.bytes
  skipped : first.skipped ≤ again.skipped

structure Visit.Revisits (visit again : Visit) : Prop where
  info : again.info = visit.info
  tally : visit.tally.Repeats again.tally
  rereads : visit.info.isDirectory = false → visit.session.Rereads again.session
  flag : again.host.cancelled = visit.host.cancelled

namespace UnpackJob

variable {job : UnpackJob} {visit again : Visit} {tally fewer next : Tally}
  {one other : Session} {host otherHost : Host}

def Unobserved (job : UnpackJob) : Prop := ∀ number name total, job.observer number name total = {}

theorem Unobserved.report (unobserved : job.Unobserved) (name : String) (tally : Tally)
    (host : Host) :
    job.report name tally host = (.ok tally, host.record (.progress name tally.bytes)) := by
  simp only [UnpackJob.report, unobserved _ _ _]
  rfl

theorem treat_lasts (job : UnpackJob) (visit : Visit) :
    Lasts (visit.host.prepare job.output visit.info).2.tree (job.treat visit).host.tree := by
  rw [treat, unpackMember_prepare]
  cases prepared : visit.host.prepare job.output visit.info with
  | mk preparation after =>
      cases preparation with
      | file location =>
          obtain ⟨_, _, _, creating⟩ := Host.created_of_prepare prepared
          obtain ⟨content, filled⟩ :=
            job.fillFile_tree visit.info.path location visit.tally visit.session after
          obtain ⟨_, _, _, vacant, opened⟩ := createFile_ok creating
          dsimp only
          rw [filled]
          refine ⟨fill_keeps creating content, ?_⟩
          rw [opened]
          exact (vacant.put_file []).put_noNewLinks content
      | _ => exact .refl after.tree

theorem fillFile_again (unobserved : job.Unobserved) (rereads : one.Rereads other)
    (repeats : tally.Repeats fewer) (flag : otherHost.cancelled = host.cancelled)
    (name : String) (location : Location)
    (done : (job.fillFile name location tally one host).value = .ok next) :
    ∃ nextToo, (job.fillFile name location fewer other otherHost).value = .ok nextToo ∧
      next.Repeats nextToo ∧
      (job.fillFile name location fewer other otherHost).host.cancelled =
        (job.fillFile name location tally one host).host.cancelled := by
  have walked := rereads.forEachChunk job { total := tally.bytes } { total := fewer.bytes } flag
    repeats.bytes
  unfold fillFile at done ⊢
  dsimp only at walked done ⊢
  generalize one.forEachChunk job.writer { total := tally.bytes } host = first at *
  generalize other.forEachChunk job.writer { total := fewer.bytes } otherHost = second at *
  split at done
  · cases done
  · cases done
  rename_i complete
  obtain ⟨completeToo, total, flagAfter⟩ := walked complete
  simp only [completeToo, unobserved.report] at done ⊢
  cases done
  exact ⟨_, rfl, ⟨repeats.directories, Nat.add_le_add_right repeats.files 1, total,
    repeats.skipped⟩, flagAfter⟩

/-- A visit that has got through gets through once more. -/
theorem treat_again (unobserved : job.Unobserved) (revisits : visit.Revisits again)
    (done : (job.treat visit).value = .ok next)
    (lowered : (job.treat visit).host.cancelled = false)
    (lasts : Lasts (job.treat visit).host.tree again.host.tree) :
    ∃ nextToo, (job.treat again).value = .ok nextToo ∧ next.Repeats nextToo ∧
      (job.treat again).host.cancelled = false := by
  have down : visit.host.cancelled = false := by
    cases up : visit.host.cancelled with
    | false => rfl
    | true =>
        obtain ⟨_, _, still, _⟩ := job.treat_raised visit up
        cases lowered.symm.trans still
  have downToo : (again.host.prepare job.output visit.info).2.cancelled = false :=
    (again.host.prepare_readies job.output visit.info).flag.trans (revisits.flag.trans down)
  have downReady := (visit.host.prepare_readies job.output visit.info).flag.trans down
  have regular : ∀ location ready,
      visit.host.prepare job.output visit.info = (.file location, ready) →
        visit.info.isDirectory = false :=
    fun location ready file => (treat_of_target job (Host.target?_of_file file)).1
  -- A member that got through has met no obstacle.
  have through : ∀ error, (visit.host.prepare job.output visit.info).1 ≠ .obstructed error := by
    intro error obstructed
    rw [treat, unpackMember_prepare] at done
    generalize visit.host.prepare job.output visit.info = prepared at *
    obtain ⟨_, _⟩ := prepared
    cases obstructed
    cases done
  have recurs := Host.prepare_again through ((job.treat_lasts visit).trans lasts)
  have repeats := revisits.tally
  rw [treat, unpackMember_prepare] at done lowered
  rw [treat, unpackMember_prepare, revisits.info]
  generalize visit.host.prepare job.output visit.info = prepared at *
  generalize again.host.prepare job.output visit.info = preparedToo at *
  obtain ⟨preparation, ready⟩ := prepared
  obtain ⟨preparationToo, readyToo⟩ := preparedToo
  dsimp only at done lowered downToo downReady through recurs ⊢
  cases recurs with
  | taken location =>
      -- What was a file the first time is passed over, which is told by the tally alone.
      cases fillFile_counted done
      have total := job.walk_total visit.tally visit.session ready
      refine ⟨_, rfl, ⟨repeats.directories, ?_, ?_, ?_⟩, downToo⟩
      · exact Nat.le_succ_of_le repeats.files
      · exact repeats.bytes.trans (by rw [counted, total]; exact Nat.le_add_right _ _)
      · exact Nat.le_succ_of_le repeats.skipped
  | same =>
      cases preparation with
      | refused error =>
          cases done
          exact ⟨_, rfl, ⟨repeats.directories, repeats.files, repeats.bytes,
            Nat.add_le_add_right repeats.skipped 1⟩, downToo⟩
      | obstructed error => exact absurd rfl (through error)
      | directory =>
          cases done
          exact ⟨_, rfl, ⟨congrArg (· + 1) repeats.directories, repeats.files, repeats.bytes,
            repeats.skipped⟩, downToo⟩
      | blocked =>
          cases done
          exact ⟨_, rfl, ⟨repeats.directories, repeats.files, repeats.bytes,
            Nat.add_le_add_right repeats.skipped 1⟩, downToo⟩
      | file location =>
          obtain ⟨nextToo, doneToo, repeatsToo, flag⟩ := fillFile_again unobserved
            (revisits.rereads (regular location ready rfl)) repeats (downToo.trans downReady.symm)
            visit.info.path location done
          exact ⟨nextToo, doneToo, repeatsToo, flag.trans lowered⟩

end UnpackJob

end ArchiveTraversal
