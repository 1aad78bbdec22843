import Mathlib
import ArchiveTraversal.Proofs.FileTree.Fresh
import ArchiveTraversal.Proofs.Safety
import ArchiveTraversal.Proofs.Unpack.Steps

/-!
An unpack stays below its output directory. Every change that it makes goes through a path that
spells a member's accepted names below the directory, and these lead out of it only through a link.
As no change makes a link, there is none to be found when there was none at the start. The main
theorem says what may differ in the end: what is below the directory, and the directories that
were missing on the way to it.
-/

namespace ArchiveTraversal

open FileTree

/-- What one part of an unpack may do to a tree: put no link anywhere, and stay below the output
directory as long as that has no links below it. -/
structure Contained (output : Path) (before after : FileTree) : Prop where
  noNewLinks : NoNewLinks before after
  alters : ∀ base, before.Clear output base → Alters base before after

namespace Contained

theorem refl (output : Path) (tree : FileTree) : Contained output tree tree :=
  ⟨.refl tree, fun base _ => .refl base tree⟩

theorem of_eq {output : Path} {before after : FileTree} (same : after = before) :
    Contained output before after := same ▸ .refl output before

theorem trans {output : Path} {before between after : FileTree}
    (first : Contained output before between) (second : Contained output between after) :
    Contained output before after := by
  refine ⟨first.noNewLinks.trans second.noNewLinks, fun base clear => ?_⟩
  have once := first.alters base clear
  exact once.trans (second.alters base (clear.alters once))

end Contained

/-- A path below the output directory, as its names spell it. -/
def Inside (output path : Path) : Prop :=
  ∃ names, (∀ name ∈ names, Path.Plain name) ∧ path.Spells output names

def Within (output path : Path) : Prop :=
  ∃ names, names ≠ [] ∧ (∀ name ∈ names, Path.Plain name) ∧ path.Spells output names

theorem Within.parent {output path : Path} (within : Within output path) :
    Inside output (path.parent?.getD []) := by
  obtain ⟨names, nonempty, plain, spells⟩ := within
  obtain ⟨above, last, ends⟩ := (List.eq_nil_or_concat names).resolve_left nonempty
  rw [List.concat_eq_append] at ends
  subst ends
  obtain ⟨parent, found, spelled⟩ := spells.parent?
  rw [found]
  exact ⟨above, fun name member => plain name (by simp [member]), spelled⟩

theorem Within.inside {output path : Path} (within : Within output path) : Inside output path := by
  obtain ⟨names, _, plain, spells⟩ := within
  exact ⟨names, plain, spells⟩

theorem makeDirectories_contained {tree : FileTree} {output path : Path}
    (inside : Inside output path) : Contained output tree (tree.makeDirectories path).2 := by
  refine ⟨(makeDirectories_grows tree path).noNewLinks, fun base clear => ?_⟩
  obtain ⟨names, plain, spells⟩ := inside
  exact (clear.makeInside spells plain).alters

theorem removeFile_contained {tree smaller : FileTree} {output path : Path}
    (within : Within output path) (removed : tree.removeFile path = .ok smaller) :
    Contained output tree smaller := by
  refine ⟨removeFile_noNewLinks removed, fun base clear => ?_⟩
  obtain ⟨names, nonempty, plain, spells⟩ := within
  have keptLinks := removeFile_noNewLinks removed
  obtain ⟨vacant, ⟨content, stood⟩, rfl⟩ := clear.removeFile_ok spells nonempty plain removed
  refine ⟨workingDirectory_remove .., fun location apart => ?_, fun location directory => ?_,
    keptLinks⟩
  · have other : location ≠ base ++ names := by
      rintro rfl
      exact apart ⟨names, nonempty, rfl⟩
    rw [vacant.at?_remove]
    simp [other]
  · have other : location ≠ base ++ names := by
      rintro rfl
      rw [stood] at directory
      cases directory
    rw [vacant.at?_remove]
    simpa [other] using directory

theorem createFile_contained {tree opened : FileTree} {output path : Path} {location : Location}
    (within : Within output path) (created : tree.createFile path = .ok (location, opened))
    (content : Bytes) : Contained output tree (opened.put location (.file content)) := by
  obtain ⟨_, _, _, vacant, put⟩ := FileTree.createFile_ok created
  have view := vacant.at?_put_again [] content
  subst put
  have noNewLinks := (vacant.put_noNewLinks []).trans ((vacant.put_file []).put_noNewLinks content)
  refine ⟨noNewLinks, fun base clear => ?_⟩
  obtain ⟨names, nonempty, plain, spells⟩ := within
  obtain ⟨there, _, _⟩ := clear.createFile_ok spells nonempty plain created
  refine ⟨by rw [workingDirectory_put, workingDirectory_put], fun other apart => ?_,
    fun other directory => ?_, noNewLinks⟩
  · have elsewhere : other ≠ location := by
      rintro rfl
      exact apart ⟨names, nonempty, there⟩
    rw [view, if_neg elsewhere]
  · have elsewhere : other ≠ location := by
      rintro rfl
      exact vacant.leaf directory
    rw [view, if_neg elsewhere, directory]

theorem within_destination (output : Path) {info : MemberInfo} {relative : Path}
    (accepted : Safety.destination info = .ok relative) :
    Within output (output.join relative) := by
  obtain ⟨nonempty, plain, _, _⟩ := Safety.destination_ok accepted
  exact ⟨relative.names, nonempty, plain, Safety.spells_destination accepted output⟩

theorem within_leadingTo {output path : Path} {info : MemberInfo} {relative : Path}
    (accepted : Safety.destination info = .ok relative)
    (member : path ∈ output.leadingTo relative.names) : Within output path := by
  obtain ⟨_, plain, _, _⟩ := Safety.destination_ok accepted
  obtain ⟨above, below, split, nonempty, _, spells⟩ := Path.spells_leadingTo plain member
  exact ⟨above, nonempty, fun name inner => plain name (by simp [split, inner]), spells⟩

namespace Host

theorem clearFiles_contained {output : Path} {paths : List Path}
    (within : ∀ path ∈ paths, Within output path) (host : Host) :
    Contained output host.tree (host.clearFiles paths).2.tree := by
  induction paths generalizing host with
  | nil => exact .refl output host.tree
  | cons path deeper ih =>
      have rest := ih fun other member => within other (List.mem_cons_of_mem _ member)
      simp only [clearFiles]
      split
      · cases removed : (host.event (.fileReplaced path)).tree.removeFile path with
        | error error => exact .refl output host.tree
        | ok tree =>
            have once := removeFile_contained (within path List.mem_cons_self) removed
            exact once.trans (rest { host.event (.fileReplaced path) with tree := tree })
      · exact rest host

theorem placeDirectory_contained {output path : Path} (within : Within output path) (host : Host) :
    Contained output host.tree (host.placeDirectory path).2.tree := by
  unfold placeDirectory
  split
  · cases removed : host.tree.removeFile path with
    | error error => exact .refl output host.tree
    | ok tree =>
        exact (removeFile_contained within removed).trans (makeDirectories_contained within.inside)
  · exact makeDirectories_contained within.inside

end Host

namespace UnpackJob

theorem report_tree (job : UnpackJob) (name : String) (tally : Tally) (host : Host) :
    (job.report name tally host).2.tree = host.tree := by
  have raised := Host.raiseIf_extends (host.record (.progress name tally.bytes))
    (job.observer tally.files name tally.bytes).raisesCancel
  exact raised.tree

theorem fillFile_tree (job : UnpackJob) (name : String) (location : Location) (tally : Tally)
    (session : Session) (host : Host) :
    ∃ content, (job.fillFile name location tally session host).host.tree =
      host.tree.put location (.file content) := by
  have walked := (session.forEachChunk_extends job.writer { total := tally.bytes } host).tree
  refine ⟨(session.forEachChunk job.writer { total := tally.bytes } host).value.2.content, ?_⟩
  rw [← walked]
  unfold fillFile
  dsimp only
  split
  · rfl
  · rfl
  · exact report_tree ..

theorem unpackFile_contained (job : UnpackJob) {name : String} {destination : Path}
    (within : Within job.output destination) (tally : Tally) (session : Session) (host : Host) :
    Contained job.output host.tree
      (job.unpackFile name destination tally session host).host.tree := by
  have parents : Contained job.output host.tree
      (host.tree.makeDirectories (destination.parent?.getD [])).2 :=
    makeDirectories_contained within.parent
  rcases job.unpackFile_cases tally session host name destination with
    ⟨error, tree, made, ends⟩ | ⟨tree, made, rest⟩
  · rw [made] at parents
    rw [ends]
    exact parents
  · rw [made] at parents
    rcases rest with ⟨_, ends⟩ | ⟨_, ⟨error, _, ends⟩ | ⟨location, opened, created, ends⟩⟩
    · rw [ends]
      exact parents
    · rw [ends]
      exact parents
    · obtain ⟨content, filled⟩ :=
        job.fillFile_tree name location tally session { host with tree := opened }
      rw [ends, filled]
      exact parents.trans (createFile_contained within created content)

theorem unpackMember_contained (job : UnpackJob) (info : MemberInfo) (tally : Tally)
    (session : Session) (host : Host) :
    Contained job.output host.tree (job.unpackMember info tally session host).host.tree := by
  rcases job.unpackMember_cases tally session host info with
    ⟨error, _, ends⟩ | ⟨relative, accepted, rest⟩
  · rw [ends]
    exact .refl job.output host.tree
  have within := within_destination job.output accepted
  have leading : ∀ path ∈ job.output.leadingTo relative.names, Within job.output path :=
    fun _ => within_leadingTo accepted
  have cleared := host.clearFiles_contained leading
  rcases rest with ⟨error, between, clear, ends⟩ | ⟨between, clear, rest⟩
  · rw [Host.clearFileAncestors] at clear
    rw [clear] at cleared
    rw [ends]
    exact cleared
  rw [Host.clearFileAncestors] at clear
  rw [clear] at cleared
  rcases rest with ⟨_, ⟨error, after, made, ends⟩ | ⟨after, made, ends⟩⟩ | ⟨_, ends⟩
  · have placed := between.placeDirectory_contained within
    rw [made] at placed
    rw [ends]
    exact cleared.trans placed
  · have placed := between.placeDirectory_contained within
    rw [made] at placed
    rw [ends]
    exact cleared.trans placed
  · rw [ends]
    exact cleared.trans (job.unpackFile_contained within tally session between)

theorem unpackMembers_contained (job : UnpackJob) (tally : Tally) (session : Session)
    (host : Host) :
    Contained job.output host.tree (job.unpackMembers tally session host).host.tree := by
  fun_induction unpackMembers job tally session host with
  | case1 => exact .refl job.output _
  | case2 _ session host => exact .of_eq (session.advance_extends host).tree
  | case3 _ session host => exact .of_eq (session.advance_extends host).tree
  | case4 tally session host _ _ header =>
      have moved : Contained job.output host.tree (session.advance host).host.tree :=
        .of_eq (session.advance_extends host).tree
      exact moved.trans (job.unpackMember_contained header.info tally _ _)
  | case5 tally session host _ _ header _ _ _ _ ih =>
      have moved : Contained job.output host.tree (session.advance host).host.tree :=
        .of_eq (session.advance_extends host).tree
      exact (moved.trans (job.unpackMember_contained header.info tally _ _)).trans ih

end UnpackJob

theorem unpackArchive_contained (path output : Path) (options : UnpackOptions)
    (observer : Observer) (host : Host) :
    let made := host.tree.makeDirectories output
    let after := (unpackArchive path output options observer host).2.tree
    after = host.tree ∨ after = made.2 ∨ made.1 = .ok () ∧ Contained output made.2 after := by
  intro made after
  have opened := (Reader.new path options.reader).openSession_tree host
  rcases unpackArchive_cases path output options observer host with
    ⟨error, reader, between, started, ends⟩ | ⟨session, between, started, rest⟩
  · rw [started] at opened
    exact .inl ((congrArg (·.2.tree) ends).trans opened)
  · rw [started] at opened
    dsimp only at opened
    rw [opened] at rest
    rcases rest with ⟨error, tree, making, ends⟩ | ⟨tree, making, ends⟩
    · refine .inr (.inl ((congrArg (·.2.tree) ends).trans ?_))
      exact (session.close_extends _).tree.trans (congrArg (·.2) making).symm
    · refine .inr (.inr ⟨congrArg (·.1) making, ?_⟩)
      have members := (options.job output observer).unpackMembers_contained {} session
        { between with tree := tree }
      have closed := (congrArg (·.2.tree) ends).trans (Session.close_extends ..).tree
      simp only [made, after, making]
      exact members.trans (.of_eq closed)

/-- However an unpack ends: as long as no link stood below the output directory, there is none
then, and nothing else has changed except for directories made on the way to it. The directory is
the one that the output path resolves to once it has been made, which is the one that it resolved
to before if there was one. Making it changes nothing below it, unless its path climbs out of a
directory that had to be made. Whatever stood where, there is no link that was not there before. -/
theorem unpackArchive_stays_below (path output : Path) (options : UnpackOptions)
    (observer : Observer) (host : Host) (nonempty : output ≠ []) :
    let made := (host.tree.makeDirectories output).2
    let after := (unpackArchive path output options observer host).2.tree
    (∀ base, host.tree.Resolves output base → made.Resolves output base) ∧
    (Path.up ∉ output.names ∨ host.tree.directory? output ≠ none →
      (host.tree.makeDirectories output).1 = .ok () →
        ∀ location, made.BelowResolved output location →
          made.at? location = host.tree.at? location) ∧
    ((∀ location, made.BelowResolved output location →
        ∀ target, host.tree.at? location ≠ some (.link target)) →
      (∀ location, ¬ made.BelowResolved output location →
        after.at? location = host.tree.at? location ∨
          host.tree.at? location = none ∧ made.at? location = some .directory ∧
            after.at? location = some .directory) ∧
      ∀ location, after.BelowResolved output location →
        ∀ target, after.at? location ≠ some (.link target)) ∧
    ∀ location target, after.at? location = some (.link target) →
      host.tree.at? location = some (.link target) := by
  intro made after
  have grows : Grows host.tree made := makeDirectories_grows host.tree output
  have stays : ∀ base, host.tree.Resolves output base → made.Resolves output base :=
    fun base => .keeps grows.keeps
  have settles : Path.up ∉ output.names ∨ host.tree.directory? output ≠ none →
      (host.tree.makeDirectories output).1 = .ok () →
        ∀ location, made.BelowResolved output location →
          made.at? location = host.tree.at? location := by
    rintro settled succeeded _ ⟨base, resolves, below, some, rfl⟩
    exact makeDirectories_below settled (Prod.ext succeeded rfl) (resolves_iff.mp resolves).2 some
  refine ⟨stays, settles, ?_⟩
  rcases unpackArchive_contained path output options observer host with
    same | same | ⟨succeeded, contained⟩
  -- Nothing was made at all.
  · have same : after = host.tree := same
    rw [same]
    refine ⟨fun linkless => ⟨fun _ _ => .inl rfl, ?_⟩, NoNewLinks.refl host.tree⟩
    rintro location ⟨base, resolves, below⟩
    exact linkless location ⟨base, stays base resolves, below⟩
  -- Nothing but directories on the way to the output, which is why none is a link.
  · have same : after = made := same
    rw [same]
    refine ⟨fun linkless => ⟨fun location _ => ?_, fun location below target link => ?_⟩,
      grows.noNewLinks⟩
    · exact (grows.view location).imp_right fun ⟨absent, new⟩ => ⟨absent, new, new⟩
    · exact linkless location below target (grows.noNewLinks location target link)
  -- The output directory is there, and all the rest was done below it.
  · refine ⟨fun linkless => ?_, grows.noNewLinks.trans contained.noNewLinks⟩
    obtain ⟨base, resolves⟩ : ∃ base, made.Resolves output base :=
      makeDirectories_resolves nonempty (Prod.ext succeeded rfl)
    have clear : made.Clear output base := by
      refine ⟨(resolves_iff.mp resolves).2, fun location below target link => ?_⟩
      exact linkless location ⟨base, resolves, below⟩ target (grows.noNewLinks _ _ link)
    have alters := contained.alters base clear
    refine ⟨fun location apart => ?_, ?_⟩
    · have outside := alters.outside location fun below => apart ⟨base, resolves, below⟩
      rcases grows.view location with same | ⟨absent, new⟩
      · exact .inl (outside.trans same)
      · exact .inr ⟨absent, new, outside.trans new⟩
    · rintro location ⟨other, resolvesAfter, below⟩
      have named := (clear.alters alters).named
      rw [(resolves_iff.mp resolvesAfter).2] at named
      cases named
      exact (clear.alters alters).linkless location below

/-- The output directory is named by a link beside it. A member is written there, and another one
would climb to the archive; the archive and the link are as they were. -/
theorem archive_stays_beside_output :
    let archive : Path := [0x61]
    let output : Path := [0x6C]
    let directory : Path := [0x6F]
    let header (name : Path) : Header := ⟨some name, none, 1, true, 0o100644⟩
    let climbing : Path := Path.up ++ Path.separator :: archive
    let script : Decoder.Script :=
      { headers := [{ header := some (header climbing), data := [{ serving := .content [1] }] },
          { header := some (header [0x66]), data := [{ serving := .content [2] }] }] }
    let host : Host :=
      { decoders := [some script]
        tree := { entries :=
          [(archive, .file [0]), (output, .link directory), (directory, .directory [])] } }
    let ran := unpackArchive archive output {} (fun _ _ _ => {}) host
    ran.1 = .ok { files := 1, skipped := 1, bytes := 1 } ∧
      ran.2.tree.at? [directory, [0x66]] = some (.file [2]) ∧
      ran.2.tree.at? [archive] = some (.file [0]) ∧
      ran.2.tree.at? [output] = some (.link directory) := by
  intro archive output directory header climbing script host ran
  obtain ⟨_, _, contained, _⟩ :=
    unpackArchive_stays_below archive output {} (fun _ _ _ => {}) host (by decide)
  have base {location : Location}
      (below : (host.tree.makeDirectories output).2.BelowResolved output location) :
      ∃ names, names ≠ [] ∧ location = [directory] ++ names := by
    obtain ⟨other, resolves, inside⟩ := below
    have named : (host.tree.makeDirectories output).2.directory? output = some [directory] := by rfl
    rw [(resolves_iff.mp resolves).2] at named
    cases named
    exact inside
  have linkless : ∀ location, (host.tree.makeDirectories output).2.BelowResolved output location →
      ∀ target, host.tree.at? location ≠ some (.link target) := by
    intro location below target link
    obtain ⟨names, some, rfl⟩ := base below
    obtain ⟨name, rest, rfl⟩ := List.exists_cons_of_ne_nil some
    cases link
  have stays (name : Name) (other : name ≠ directory) (stands : host.tree.at? [name] ≠ none) :
      ran.2.tree.at? [name] = host.tree.at? [name] := by
    refine ((contained linkless).1 [name] ?_).resolve_right fun absent => stands absent.1
    intro below
    obtain ⟨names, _, same⟩ := base below
    exact other (List.cons.inj same).1
  exact ⟨by cbv, by cbv, stays archive (by decide) (by decide),
    stays output (by decide) (by decide)⟩

end ArchiveTraversal
