import ArchiveTraversal.Proofs.Listing
import ArchiveTraversal.Proofs.Session.Effects
import ArchiveTraversal.Proofs.Unpack.Reprise

/-!
An unpack that is done once more over what it has left. Each member is come to as before, and gets
through as it did before. A file that gave way to a directory in the first run is passed over in the
second, so that the trees of the two runs differ on the way; but in the end the same is placed.
-/

namespace ArchiveTraversal

open Decoder FileTree

namespace Session

structure Reawaits (one other : Session) : Prop where
  setup : other.setup = one.setup
  headers : other.handle.headers = one.handle.headers
  going : one.Going
  goingToo : other.Going

variable {one other session : Session} {host otherHost : Host}

theorem Going.advance_flag (going : session.Going) (host : Host) :
    (session.advance host).host.cancelled =
      (host.cancelled || session.handle.nextHeader.1.cancels) := by
  obtain ⟨event, ends⟩ := going.advance_host host
  rw [ends]
  exact Host.raiseIf_cancelled ..

theorem Reawaits.advance (reawaits : one.Reawaits other)
    (flag : otherHost.cancelled = host.cancelled) :
    (other.advance otherHost).value = (one.advance host).value ∧
      (other.advance otherHost).host.cancelled = (one.advance host).host.cancelled := by
  have next := congrArg List.head? reawaits.headers
  constructor
  · exact reawaits.going.advance_congr reawaits.goingToo (congrArg Setup.path reawaits.setup) next
      host otherHost
  · rw [reawaits.goingToo.advance_flag, reawaits.going.advance_flag, flag,
      Handle.cancels_congr next]

variable {job : UnpackJob} {tally fewer next nextToo : Tally} {header : Header}

theorem Reawaits.revisits (reawaits : one.Reawaits other)
    (flag : otherHost.cancelled = host.cancelled) (repeats : tally.Repeats fewer)
    (moved : (one.advance host).value = .ok (some header)) :
    (UnpackJob.meets tally one host header).Revisits
      (UnpackJob.meets fewer other otherHost header) := by
  obtain ⟨value, flagAfter⟩ := reawaits.advance flag
  obtain ⟨item, movedTo⟩ := Session.movedTo_of_advance moved
  obtain ⟨itemToo, movedToo⟩ := Session.movedTo_of_advance (value.trans moved)
  have same := reawaits.headers
  rw [movedTo.left, movedToo.left] at same
  refine ⟨rfl, repeats, fun regular => ?_, flagAfter⟩
  constructor
  · exact (Session.advance_setup ..).trans (reawaits.setup.trans (Session.advance_setup ..).symm)
  · exact movedToo.data.trans ((congrArg HeaderItem.data (List.cons.inj same).1).trans
      movedTo.data.symm)
  · exact movedTo.onData regular
  · exact movedToo.onData regular

theorem Reawaits.treat (reawaits : one.Reawaits other)
    (flag : otherHost.cancelled = host.cancelled)
    (moved : (one.advance host).value = .ok (some header))
    (done : (job.treat (UnpackJob.meets tally one host header)).value = .ok next)
    (doneToo : (job.treat (UnpackJob.meets fewer other otherHost header)).value = .ok nextToo) :
    (job.treat (UnpackJob.meets tally one host header)).session.Reawaits
      (job.treat (UnpackJob.meets fewer other otherHost header)).session := by
  have movedToo := (reawaits.advance flag).1.trans moved
  constructor
  · rw [UnpackJob.meets_setup, UnpackJob.meets_setup, reawaits.setup]
  · rw [UnpackJob.meets_headers, UnpackJob.meets_headers, reawaits.going.advance_headers,
      reawaits.goingToo.advance_headers, reawaits.headers]
  · exact UnpackJob.meets_going moved done
  · exact UnpackJob.meets_going movedToo doneToo

end Session

/-- Without a working directory nothing is done below an empty output path. -/
theorem Host.prepare_nowhere {host : Host} (gone : host.tree.directory? [] = none)
    (info : MemberInfo) :
    (host.prepare [] info).2.tree = host.tree ∧
      ∀ location, (host.prepare [] info).1 ≠ .file location := by
  unfold Host.prepare
  split
  · exact ⟨rfl, fun location => by simp⟩
  rename_i relative safe
  have spells := Safety.spells_destination safe []
  have level : (Path.join [] relative).isAbsolute = false := spells.absolute
  have cleared : host.clearFileAncestors [] relative = (.ok (), host) := by
    apply Host.clearFiles_of_none
    intro path member
    obtain ⟨_, _, _, _, _, leading⟩ :=
      Path.spells_leadingTo (Safety.destination_ok safe).2.1 member
    exact isFile_nowhere gone leading.absolute
  -- Relative paths start in the working directory, so none of them leads to anything.
  have idle : ∀ {path : Path}, path.isAbsolute = false →
      (host.tree.makeDirectories path).2 = host.tree :=
    fun relative => makeInside_nowhere gone (Path.isAbsolute_ancestors relative)
  rw [cleared]
  dsimp only
  split
  · have placed : (host.placeDirectory (Path.join [] relative)).2.tree = host.tree := by
      simp only [Host.placeDirectory, isFile_nowhere gone level]
      exact idle level
    split <;> rename_i placing <;> rw [placing] at placed <;> exact ⟨placed, fun _ => by simp⟩
  · have above : ((Path.join [] relative).parent?.getD []).isAbsolute = false := by
      cases found : (Path.join [] relative).parent? with
      | none => rfl
      | some parent => exact Path.isAbsolute_parent level found
    have made : (host.makeDirectories ((Path.join [] relative).parent?.getD [])).2.tree =
        host.tree := idle above
    split
    · rename_i making
      rw [making] at made
      exact ⟨made, fun _ => by simp⟩
    rename_i after making
    rw [making] at made
    dsimp only at made
    split
    · exact ⟨made, fun _ => by simp⟩
    obtain ⟨error, refused⟩ := createFile_nowhere gone level
    rw [← made] at refused
    simp only [refused]
    exact ⟨made, fun _ => by simp⟩

namespace UnpackJob

variable {job : UnpackJob} {tally fewer last : Tally} {one other : Session} {host otherHost : Host}
  {kind : FileTree → Prop}

/-- Trees of a kind in which a member takes nothing away that a path may lead through. -/
structure Steady (job : UnpackJob) (kind : FileTree → Prop) : Prop where
  kept : ∀ visit : Visit, kind visit.host.tree → kind (job.treat visit).host.tree
  lasts : ∀ visit : Visit, kind visit.host.tree →
    Lasts visit.host.tree (job.treat visit).host.tree

theorem steady_of_clear (job : UnpackJob) (base : Location) :
    job.Steady (·.Clear job.output base) := by
  have contained := fun visit : Visit =>
    job.unpackMember_contained visit.info visit.tally visit.session visit.host
  constructor
  · exact fun visit clear => clear.alters ((contained visit).alters base clear)
  · exact fun visit clear => clear.lasts ((contained visit).alters base clear)

theorem steady_nowhere (job : UnpackJob) {tree : FileTree} (empty : job.output = [])
    (gone : tree.directory? [] = none) : job.Steady (· = tree) := by
  have same : ∀ visit : Visit, visit.host.tree = tree → (job.treat visit).host.tree = tree := by
    intro visit here
    obtain ⟨still, noFile⟩ := Host.prepare_nowhere (here ▸ gone) visit.info
    rw [treat, unpackMember_prepare, empty]
    generalize visit.host.prepare [] visit.info = prepared at *
    obtain ⟨preparation, after⟩ := prepared
    have there := still.trans here
    cases preparation with
    | file location => exact absurd rfl (noFile location)
    | _ => exact there
  constructor
  · exact same
  · intro visit here
    rw [same visit here, here]
    exact .refl tree

theorem Steady.goes (steady : job.Steady kind) {visits : List Visit}
    {final : Outcome (Except UnpackError Tally)} (goes : job.Goes tally one host visits final)
    (of : kind host.tree) : kind final.host.tree ∧ Lasts host.tree final.host.tree := by
  induction goes with
  | cancelled => exact ⟨of, .refl _⟩
  | @unreadable tally one host =>
      rw [(one.advance_extends host).tree]
      exact ⟨of, .refl _⟩
  | @ended tally one host =>
      rw [(one.advance_extends host).tree]
      exact ⟨of, .refl _⟩
  | @stopped tally one host header =>
      have same := (one.advance_extends host).tree
      have met : kind (meets tally one host header).host.tree := same ▸ of
      exact ⟨steady.kept _ met, same ▸ steady.lasts _ met⟩
  | @member tally next one host header later final lowered moved done goes ih =>
      have same := (one.advance_extends host).tree
      have met : kind (meets tally one host header).host.tree := same ▸ of
      obtain ⟨there, lasts⟩ := ih (steady.kept _ met)
      have first : Lasts host.tree _ := same ▸ steady.lasts _ met
      exact ⟨there, first.trans lasts⟩

theorem Goes.again (steady : job.Steady kind) (unobserved : job.Unobserved) {visits : List Visit}
    {final : Outcome (Except UnpackError Tally)} (goes : job.Goes tally one host visits final)
    (ended : final.value = .ok last) (of : kind host.tree) (reawaits : one.Reawaits other)
    (repeats : tally.Repeats fewer) (lowered : otherHost.cancelled = false)
    (ofToo : kind otherHost.tree) (lasts : Lasts final.host.tree otherHost.tree) :
    ∃ visitsToo finalToo lastToo, job.Goes fewer other otherHost visitsToo finalToo ∧
      finalToo.value = .ok lastToo ∧ last.Repeats lastToo := by
  induction goes generalizing other otherHost fewer with
  | cancelled => cases ended
  | unreadable => cases ended
  | stopped => cases ended
  | ended down nothing =>
      cases ended
      obtain ⟨value, _⟩ := reawaits.advance (lowered.trans down.symm)
      exact ⟨[], _, _, .ended lowered (value.trans nothing), rfl, repeats⟩
  | @member tally next one host header later final down moved done goes ih =>
      have flag := lowered.trans down.symm
      have value := (reawaits.advance flag).1
      have met : kind (meets tally one host header).host.tree :=
        (one.advance_extends host).tree ▸ of
      have metToo : kind (meets fewer other otherHost header).host.tree :=
        (other.advance_extends otherHost).tree ▸ ofToo
      -- The second run meets the member after the first one has come to its end.
      have since : Lasts (job.treat (meets tally one host header)).host.tree
          (meets fewer other otherHost header).host.tree := by
        have onwards := (steady.goes goes (steady.kept _ met)).2
        have there := onwards.trans lasts
        rwa [← (other.advance_extends otherHost).tree] at there
      have downAfter : (job.treat (meets tally one host header)).host.cancelled = false := by
        cases up : (job.treat (meets tally one host header)).host.cancelled with
        | false => rfl
        | true =>
            obtain ⟨_, rfl⟩ := goes.of_raised up
            cases ended
      obtain ⟨nextToo, doneToo, repeatsToo, loweredToo⟩ := treat_again unobserved
        (reawaits.revisits flag repeats moved) done downAfter since
      have later : Lasts final.host.tree
          (job.treat (meets fewer other otherHost header)).host.tree := by
        have step := steady.lasts _ metToo
        have same : (meets fewer other otherHost header).host.tree = otherHost.tree :=
          (other.advance_extends otherHost).tree
        rw [same] at step
        exact lasts.trans step
      obtain ⟨visitsToo, finalToo, lastToo, goesToo, endedToo, repeatsLast⟩ :=
        ih ended (steady.kept _ met) (reawaits.treat flag moved done doneToo) repeatsToo
          loweredToo (steady.kept _ metToo) later
      exact ⟨_, finalToo, lastToo, .member lowered (value.trans moved) doneToo goesToo, endedToo,
        repeatsLast⟩

end UnpackJob

namespace FileTree

/-- The directory that an output path names once it has been made. -/
def madeDirectory? (tree : FileTree) (output : Path) : Option Location :=
  (tree.makeDirectories output).2.directory? output

variable {tree made : FileTree} {output : Path}

theorem clear_of_made (making : tree.makeDirectories output = (.ok (), made)) {base : Location}
    (named : made.directory? output = some base)
    (linkless : ∀ location, Below base location → ∀ target,
      tree.at? location ≠ some (.link target)) : made.Clear output base := by
  have grows := makeDirectories_grows tree output
  rw [making] at grows
  exact ⟨named, fun location below target link =>
    linkless location below target (grows.noNewLinks location target link)⟩

end FileTree

section

variable {path output : Path} {options : UnpackOptions} {observer : Observer} {host again : Host}
  {tally count : Tally} {made : FileTree} {base : Location}

theorem goes_of_ok (ok : (unpackArchive path output options observer host).1 = .ok tally) :
    ∃ session between made visits final,
      (Reader.new path options.reader).openSession host = (.opened session, between) ∧
      host.tree.makeDirectories output = (.ok (), made) ∧
      (options.job output observer).Goes {} session { between with tree := made } visits final ∧
      final.value = .ok tally ∧
      (unpackArchive path output options observer host).2.tree = final.host.tree := by
  have unpacks := unpackArchive_unpacks path output options observer host
  generalize unpackArchive path output options observer host = result at *
  generalize unpackVisits path output options observer host = visits at unpacks
  cases unpacks with
  | refused => cases ok
  | obstructed => cases ok
  | @ran session between made _ final opened making goes =>
      have kept := (Reader.new path options.reader).openSession_tree host
      rw [opened] at kept
      dsimp only at kept
      rw [kept] at making
      exact ⟨session, between, made, _, final, opened, making, goes, ok,
        (final.session.close_extends final.host).tree⟩

theorem alters_of_ok (ok : (unpackArchive path output options observer host).1 = .ok tally)
    (making : host.tree.makeDirectories output = (.ok (), made)) (clear : made.Clear output base) :
    Alters base made (unpackArchive path output options observer host).2.tree := by
  obtain ⟨session, between, other, visits, final, _, makingToo, goes, _, tree⟩ := goes_of_ok ok
  cases making.symm.trans makingToo
  obtain ⟨_, rfl⟩ := goes.eq
  rw [tree]
  exact ((options.job output observer).unpackMembers_contained {} session
    { between with tree := made }).alters base clear

theorem UnpackJob.Steady.of_ok {kind : FileTree → Prop}
    (steady : (options.job output observer).Steady kind)
    (ok : (unpackArchive path output options observer host).1 = .ok tally)
    (making : host.tree.makeDirectories output = (.ok (), made)) (of : kind made) :
    kind (unpackArchive path output options observer host).2.tree ∧
      Lasts made (unpackArchive path output options observer host).2.tree := by
  obtain ⟨session, between, other, visits, final, _, makingToo, goes, _, left⟩ := goes_of_ok ok
  cases making.symm.trans makingToo
  rw [left]
  exact steady.goes goes of

theorem Reader.Opens.reopens {script : Script} (opens : Reader.Opens path host script)
    (keeps : FileTree.Keeps host.tree again.tree)
    (still : ∀ place content, host.tree.lookup .inspect path.endsInSeparator path = .ok place →
      host.tree.find? place.location = some (.file content) →
      again.tree.find? place.location = some (.file content))
    (decoders : again.decoders.head? = host.decoders.head?) : Reader.Opens path again script := by
  obtain ⟨later, next⟩ := opens.next
  rw [next, List.head?_cons] at decoders
  refine ⟨?_, List.head?_eq_some_iff.mp decoders, opens.filters, opens.formats, opens.opened⟩
  have clear := opens.clear
  unfold Reader.obstacle at clear ⊢
  cases read : host.tree.metadata path with
  | error error => simp [read] at clear
  | ok node =>
      obtain ⟨found, readAgain, shape⟩ := metadata_again read keeps still
      rw [read] at clear
      rw [readAgain]
      cases node <;> cases found <;> cases shape <;> exact clear

theorem unpackArchive_recurs {kind : FileTree → Prop}
    (steady : (options.job output observer).Steady kind)
    (unobserved : (options.job output observer).Unobserved)
    (ok : (unpackArchive path output options observer host).1 = .ok tally)
    (making : host.tree.makeDirectories output = (.ok (), made)) (of : kind made)
    (still : ∀ place content, host.tree.lookup .inspect path.endsInSeparator path = .ok place →
      host.tree.find? place.location = some (.file content) →
      again.tree.find? place.location = some (.file content))
    (tree : again.tree = (unpackArchive path output options observer host).2.tree)
    (decoders : again.decoders.head? = host.decoders.head?) (lowered : again.cancelled = false) :
    ∃ count, (unpackArchive path output options observer again).1 = .ok count ∧
      tally.Repeats count ∧ again.tree.makeDirectories output = (.ok (), again.tree) := by
  obtain ⟨there, lasts⟩ := steady.of_ok ok making of
  obtain ⟨session, between, other, visits, final, opened, makingToo, goes, ended, left⟩ :=
    goes_of_ok ok
  cases making.symm.trans makingToo
  rw [← tree] at there lasts left
  have grows := makeDirectories_grows host.tree output
  rw [making] at grows
  -- The archive opens, and the output directory needs no making.
  obtain ⟨script, opens, _⟩ := Reader.opens_of_opened opened
  obtain ⟨other, since, openedAgain, headers, start⟩ :=
    (opens.reopens (grows.keeps.trans lasts.toKeeps) still decoders).openSession options.reader
  have kept := (Reader.new path options.reader).openSession_tree again
  have flag := Reader.openSession_cancelled path options.reader again
  rw [openedAgain] at kept flag
  dsimp only at kept flag
  have idle := makeDirectories_again making lasts.toKeeps
  have reawaits : session.Reawaits other := by
    obtain ⟨first, _, next, given, setup, begins⟩ := Reader.openSession_opened opened
    obtain ⟨_, _, _, _, setupToo, _⟩ := Reader.openSession_opened openedAgain
    obtain ⟨_, nextToo⟩ := opens.next
    cases next.symm.trans nextToo
    exact ⟨setupToo.trans setup.symm, headers.trans given.symm, .inl begins, .inl start⟩
  have down : ({ since with tree := again.tree } : Host).cancelled = false := flag.trans lowered
  obtain ⟨visitsToo, finalToo, count, goesToo, endedToo, repeats⟩ := goes.again steady unobserved
    ended of reawaits ⟨rfl, Nat.le_refl _, Nat.le_refl _, Nat.le_refl _⟩ down there
    (left ▸ .refl again.tree)
  have makingAgain : since.tree.makeDirectories output = (.ok (), again.tree) := kept.symm ▸ idle
  have ran := (Unpacks.ran openedAgain makingAgain goesToo).eq.2
  exact ⟨count, ran ▸ endedToo, repeats, idle⟩

/-- What one unpack has placed below the output directory another one does not change, as it places
the same once more. -/
theorem same_tree_of_ok (ok : (unpackArchive path output options observer host).1 = .ok tally)
    (making : host.tree.makeDirectories output = (.ok (), made)) (clear : made.Clear output base)
    (tree : again.tree = (unpackArchive path output options observer host).2.tree)
    (decoders : again.decoders.head? = host.decoders.head?)
    (okToo : (unpackArchive path output options observer again).1 = .ok count)
    (idle : again.tree.makeDirectories output = (.ok (), again.tree)) :
    (∀ location, (unpackArchive path output options observer again).2.tree.at? location =
        again.tree.at? location) ∧
      (unpackArchive path output options observer again).2.tree.workingDirectory =
        again.tree.workingDirectory := by
  have clearAgain := clear.alters (alters_of_ok ok making clear)
  rw [← tree] at clearAgain
  have alters := alters_of_ok okToo idle clearAgain
  obtain ⟨_, _, _, next, makingFirst, placed⟩ := unpackArchive_placed ok
  obtain ⟨_, _, _, nextToo, makingToo, placedToo⟩ := unpackArchive_placed okToo
  cases making.symm.trans makingFirst
  cases idle.symm.trans makingToo
  rw [next, nextToo] at decoders
  cases decoders
  have view := (placedToo base clearAgain).2
  rw [tree, (placed base clear).2, placeAll_again, ← (placed base clear).2, ← tree] at view
  refine ⟨fun location => ?_, alters.workingDirectory⟩
  by_cases below : Below base location
  · obtain ⟨names, _, rfl⟩ := below
    exact congrFun view names
  · exact alters.outside location below

/-- Unpacking is idempotent on disk. Once an unpack has succeeded whose output directory holds no
links and does not hold the archive, the same archive unpacked once more succeeds as well and leaves
the tree as it was. The same directories are counted, and no more files and bytes; members may be
passed over, files whose place a directory has taken. The output directory is the one that the first
unpack has written to; making it changes nothing below it, unless its path climbs out of a directory
that had to be made. -/
theorem unpackArchive_again
    (ok : (unpackArchive path output options (fun _ _ _ => {}) host).1 = .ok tally)
    (linkless : ∀ base, host.tree.madeDirectory? output = some base →
      ∀ location, Below base location → ∀ target, host.tree.at? location ≠ some (.link target))
    (apart : ∀ base, host.tree.madeDirectory? output = some base →
      ∀ place, host.tree.lookup .inspect path.endsInSeparator path = .ok place →
        ¬ base <+: place.location)
    (tree : again.tree = (unpackArchive path output options (fun _ _ _ => {}) host).2.tree)
    (decoders : again.decoders.head? = host.decoders.head?) (lowered : again.cancelled = false) :
    ∃ count, (unpackArchive path output options (fun _ _ _ => {}) again).1 = .ok count ∧
      (∀ location, (unpackArchive path output options (fun _ _ _ => {}) again).2.tree.at? location =
        again.tree.at? location) ∧
      (unpackArchive path output options (fun _ _ _ => {}) again).2.tree.workingDirectory =
        again.tree.workingDirectory ∧
      count.directories = tally.directories ∧ count.files ≤ tally.files ∧
      count.bytes ≤ tally.bytes ∧ tally.skipped ≤ count.skipped ∧
      ∀ base, host.tree.madeDirectory? output = some base →
        Path.up ∉ output.names ∨ host.tree.directory? output ≠ none →
        ∀ names, names ≠ [] → (host.tree.makeDirectories output).2.at? (base ++ names) =
          host.tree.at? (base ++ names) := by
  obtain ⟨_, _, made, _, _, _, making, _⟩ := goes_of_ok ok
  have grows := makeDirectories_grows host.tree output
  rw [making] at grows
  have unobserved : (options.job output fun _ _ _ => {}).Unobserved := fun _ _ _ => rfl
  unfold madeDirectory? at linkless apart ⊢
  rw [making] at linkless apart ⊢
  dsimp only at linkless apart ⊢
  have settles : ∀ base, made.directory? output = some base →
      Path.up ∉ output.names ∨ host.tree.directory? output ≠ none →
      ∀ names, names ≠ [] → made.at? (base ++ names) = host.tree.at? (base ++ names) :=
    fun _ named settled _ some => makeDirectories_below settled making named some
  cases named : made.directory? output with
  | some base =>
      have clear := clear_of_made making named (linkless base named)
      have alters := alters_of_ok ok making clear
      rw [← tree] at alters
      have steady := (options.job output fun _ _ _ => {}).steady_of_clear base
      obtain ⟨count, okToo, repeats, idle⟩ := unpackArchive_recurs steady unobserved ok making clear
        (fun place content looked stands => by
          have outside : ¬ Below base place.location := by
            rintro ⟨below, _, there⟩
            exact apart base named place looked ⟨below, there.symm⟩
          rw [← at?_eq_file_iff] at stands ⊢
          exact (alters.outside _ outside).trans (grows.stays stands)) tree decoders lowered
      obtain ⟨same, workingDirectory⟩ :=
        same_tree_of_ok ok making clear tree decoders okToo idle
      exact ⟨count, okToo, same, workingDirectory, repeats.directories, repeats.files,
        repeats.bytes, repeats.skipped, fun other there => settles other (named.trans there)⟩
  | none =>
      -- Any other output path is one that a directory has just been made at.
      have empty : output = [] := by
        by_contra nonempty
        obtain ⟨base, there⟩ := makeDirectories_named nonempty making
        cases named.symm.trans there
      subst empty
      have steady := (options.job [] fun _ _ _ => {}).steady_nowhere rfl named
      have same := (steady.of_ok ok making rfl).1
      rw [← tree] at same
      obtain ⟨count, okToo, repeats, idle⟩ := unpackArchive_recurs steady unobserved ok making rfl
        (fun place content _ stands => by
          rw [← at?_eq_file_iff] at stands ⊢
          exact same ▸ grows.stays stands) tree decoders lowered
      have sameToo := (steady.of_ok okToo idle same).1
      rw [sameToo, same]
      exact ⟨count, okToo, fun _ => rfl, rfl, repeats.directories, repeats.files, repeats.bytes,
        repeats.skipped, fun other there => settles other (named.trans there)⟩

end

/-- A file gives way to a directory that a later member needs. Unpacked once more, it is passed over
and the disk stays as it is. -/
theorem replaced_file_passed_over :
    let archive : Path := [0x78]
    let output : Path := [0x6F]
    let header : Path → Header := fun name => ⟨some name, none, 1, true, 0o100644⟩
    let script : Decoder.Script :=
      { headers := [
          { header := some (header [0x61]), data := [{ serving := .content [1] }] },
          { header := some (header [0x61, 0x2F, 0x62]), data := [{ serving := .content [2] }] }] }
    let host : Host := { decoders := [some script], tree := { entries := [(archive, .file [0])] } }
    let ran := unpackArchive archive output {} (fun _ _ _ => {}) host
    let again : Host := { decoders := [some script], tree := ran.2.tree }
    let second := unpackArchive archive output {} (fun _ _ _ => {}) again
    ran.1 = .ok { files := 2, bytes := 2 } ∧
      second.1 = .ok { files := 1, skipped := 1, bytes := 1 } ∧
      ∀ location, second.2.tree.at? location = ran.2.tree.at? location := by
  intro archive output header script host ran again second
  have ok : ran.1 = .ok { files := 2, bytes := 2 } := by cbv
  have made : host.tree.madeDirectory? output = some [output] := by cbv
  have found : ∃ place, host.tree.lookup .inspect archive.endsInSeparator archive = .ok place ∧
      place.location = [archive] := ⟨_, by cbv, rfl⟩
  have left : ran.2.tree = { entries :=
      [(archive, .file [0]),
        (output, .directory [([0x61], .directory [([0x62], .file [2])])])] } := by
    cbv
  have counted : second.1 = .ok { files := 1, skipped := 1, bytes := 1 } :=
    (congrArg (fun tree => (unpackArchive archive output {} (fun _ _ _ => {})
      { decoders := [some script], tree := tree }).1) left).trans (by cbv)
  refine ⟨ok, counted, ?_⟩
  have apart : ∀ base, host.tree.madeDirectory? output = some base →
      ∀ place, host.tree.lookup .inspect archive.endsInSeparator archive = .ok place →
        ¬ base <+: place.location := by
    intro base named place looked upper
    obtain ⟨there, looking, stands⟩ := found
    cases made.symm.trans named
    cases looking.symm.trans looked
    rw [stands] at upper
    exact absurd upper (by decide)
  have linkless := fun (base : Location) (_ : host.tree.madeDirectory? output = some base)
    (location : Location) (_ : Below base location) => at?_single_ne_link archive [0] location
  have repeated : again.tree = ran.2.tree := rfl
  obtain ⟨_, _, same, _⟩ := unpackArchive_again ok linkless apart repeated rfl rfl
  exact same

end ArchiveTraversal
