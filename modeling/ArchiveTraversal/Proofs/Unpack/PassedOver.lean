import ArchiveTraversal.Proofs.FileTree.Fresh
import ArchiveTraversal.Proofs.FileTree.Removal
import ArchiveTraversal.Proofs.Unpack.Preparation

/-!
A member that is passed over leaves nothing but an entry in the log. This is plain where its name or
kind is refused. Where a directory stands at its place, files were looked for on the way to it and
its parents were made before; but as there is a way to the directory, none was found or missing.
-/

namespace ArchiveTraversal

open FileTree

def Grounded (output : Path) (tree : FileTree) : Prop :=
  output = [] ∨ ∃ base, tree.directory? output = some base

theorem grounded_of_made {output : Path} {tree after : FileTree}
    (made : tree.makeDirectories output = (.ok (), after)) : Grounded output after := by
  by_cases empty : output = []
  · exact .inl empty
  · exact .inr (makeDirectories_named empty made)

theorem FileTree.directory?_above {tree : FileTree} {path longer : Path} {base : Location}
    {more : List Name} (named : tree.directory? longer = some base)
    (absolute : path.isAbsolute = longer.isAbsolute) (names : longer.names = path.names ++ more) :
    ∃ above, tree.directory? path = some above := by
  obtain ⟨left, final, ⟨standing, starts, leads⟩, _⟩ := directory?_eq_some_iff.mp named
  rw [names] at leads
  obtain ⟨middle, between, first, _⟩ := leads.parts
  exact ⟨_, directory?_eq_some_iff.mpr
    ⟨middle, between, ⟨standing, (Standing.start_congr absolute).trans starts, first⟩, rfl⟩⟩

namespace Host

section

variable {path : Path} {base : Location}

theorem makeDirectories_names {host after : Host} {other : Path} {result : Except IoError Unit}
    (making : host.makeDirectories other = (result, after))
    (named : host.tree.directory? path = some base) : after.tree.directory? path = some base := by
  have grown := makeDirectories_grows host.tree other
  rw [(makeDirectories_made making).1] at grown
  exact directory?_keeps grown.keeps named

theorem clearFiles_names {host : Host} (paths : List Path)
    (named : host.tree.directory? path = some base) :
    (host.clearFiles paths).2.tree.directory? path = some base := by
  induction paths generalizing host with
  | nil => exact named
  | cons other deeper ih =>
      simp only [clearFiles]
      split
      · rename_i is
        split
        · exact named
        · rename_i smaller removed
          have still : smaller.directory? path = some base :=
            directory?_spares (removeFile_spares is removed) named
          exact ih still
      · exact ih named

theorem placeDirectory_names {host : Host} (other : Path)
    (named : host.tree.directory? path = some base) :
    (host.placeDirectory other).2.tree.directory? path = some base := by
  unfold placeDirectory
  split
  · rename_i is
    split
    · exact named
    · rename_i smaller removed
      have still : smaller.directory? path = some base :=
        directory?_spares (removeFile_spares is removed) named
      exact makeDirectories_names rfl still
  · exact makeDirectories_names rfl named

theorem clearFileAncestors_names {host after : Host} {output relative : Path}
    {result : Except IoError Unit}
    (clearing : host.clearFileAncestors output relative = (result, after))
    (named : host.tree.directory? path = some base) : after.tree.directory? path = some base := by
  have cleared := clearFiles_names (output.leadingTo relative.names) named
  rwa [← clearFileAncestors, clearing] at cleared

/-- Whatever is done before the data of a member is looked at, a path to a directory stays one. -/
theorem prepare_names {host : Host} (output : Path) (info : MemberInfo)
    (named : host.tree.directory? path = some base) :
    (host.prepare output info).2.tree.directory? path = some base := by
  have prepares := host.prepare_prepares output info
  generalize host.prepare output info = prepared at *
  cases prepares with
  | refused => exact named
  | uncleared _ clearing => exact clearFileAncestors_names clearing named
  | @placed relative _ _ _ _ clearing placing =>
      have placed := placeDirectory_names (output.join relative)
        (clearFileAncestors_names clearing named)
      rwa [placing] at placed
  | unmade _ clearing making =>
      exact makeDirectories_names making (clearFileAncestors_names clearing named)
  | blocked _ clearing making =>
      have there := makeDirectories_names making (clearFileAncestors_names clearing named)
      exact there
  | uncreated _ clearing making =>
      exact makeDirectories_names making (clearFileAncestors_names clearing named)
  | file _ clearing making creating =>
      exact directory?_keeps (createFile_keeps creating)
        (makeDirectories_names making (clearFileAncestors_names clearing named))

end

theorem created_of_prepare {host ready : Host} {output : Path} {info : MemberInfo}
    {location : Location} (prepared : host.prepare output info = (.file location, ready)) :
    ∃ (tree : FileTree) (relative : Path), Safety.destination info = .ok relative ∧
      tree.createFile (output.join relative) = .ok (location, ready.tree) := by
  have prepares := host.prepare_prepares output info
  rw [prepared] at prepares
  generalize same : (Preparation.file location, ready) = result at prepares
  cases prepares with
  | @placed _ result => cases result <;> cases same
  | file safe _ _ creating =>
      cases same
      exact ⟨_, _, safe, creating⟩
  | _ => cases same

theorem clearFiles_idle {host after : Host} {paths : List Path}
    (cleared : host.clearFiles paths = (.ok (), after))
    (named : ∀ path ∈ paths, ∃ base, after.tree.directory? path = some base) : after = host := by
  induction paths generalizing host with
  | nil =>
      cases cleared
      rfl
  | cons path deeper ih =>
      have deeperNamed := fun other member => named other (List.mem_cons_of_mem path member)
      simp only [clearFiles] at cleared
      split at cleared
      · rename_i is
        split at cleared
        · cases cleared
        · rename_i smaller removed
          have same := ih cleared deeperNamed
          obtain ⟨base, there⟩ := named path List.mem_cons_self
          rw [same] at there
          have before := directory?_keeps (removeFile_kept removed) there
          exact absurd is (Bool.eq_false_iff.mp (not_isFile_of_named before))
      · exact ih cleared deeperNamed

theorem prepare_blocked {host after : Host} {output : Path} {info : MemberInfo}
    (grounded : Grounded output host.tree)
    (prepared : host.prepare output info = (.blocked, after)) :
    after = host.event (.memberBlocked info.path) := by
  have prepares := host.prepare_prepares output info
  rw [prepared] at prepares
  generalize same : (Preparation.blocked, after) = result at prepares
  cases prepares with
  | @placed _ result => cases result <;> cases same
  | @blocked relative between made safe clearing making stands =>
      cases same
      obtain ⟨nonempty, plain, _, _⟩ := Safety.destination_ok safe
      have spells := Safety.spells_destination safe output
      obtain ⟨above, last, ends⟩ := (List.eq_nil_or_concat relative.names).resolve_left nonempty
      rw [List.concat_eq_append] at ends
      obtain ⟨parent, found, spellsParent⟩ := (ends ▸ spells).parent?
      -- Its parents were there, so that the tree is still the one in which files were looked for.
      have still : Grounded output between.tree :=
        grounded.imp_right fun ⟨base, named⟩ => ⟨base, clearFileAncestors_names clearing named⟩
      obtain ⟨made_tree, made_host⟩ := makeDirectories_made making
      rw [found, Option.getD_some] at made_tree
      have idle : made.tree = between.tree := by
        apply makeDirectories_idle (descends_below still)
          ⟨above, fun name member => plain name (by simp [ends, member]), spellsParent⟩ _ found
          made_tree stands
        rw [spells.names, ends, ← List.append_assoc, List.getLast?_concat]
        exact fun climbs => (plain last (by simp [ends])).2.2.1 (Option.some.inj climbs)
      rw [idle] at made_host stands
      subst made_host
      -- Every path on the way leads to a directory, so that no file was there to give way.
      obtain ⟨base, named⟩ := isDirectory_named stands
      rw [clearFiles_idle clearing]
      intro path member
      obtain ⟨upper, lower, split, _, _, leading⟩ := Path.spells_leadingTo plain member
      apply directory?_above named (leading.absolute.trans spells.absolute.symm)
      rw [spells.names, leading.names, split, List.append_assoc]
  | _ => cases same

end Host

namespace UnpackJob

variable {job : UnpackJob} {visit : Visit} {tally next : Tally} {session : Session} {host : Host}

/-- The visit is one more to count among those passed over. -/
def PassesOver (job : UnpackJob) (visit : Visit) : Prop :=
  ∃ next, (job.treat visit).value = .ok next ∧ next.skipped = visit.tally.skipped + 1

theorem fillFile_counted {name : String} {location : Location}
    (done : (job.fillFile name location tally session host).value = .ok next) :
    next = job.counted tally session host := by
  have fills := job.fillFile_fills tally session host name location
  generalize job.fillFile name location tally session host = outcome at *
  cases fills with
  | unreadable => cases done
  | stopped => cases done
  | complete =>
      dsimp only [report] at done
      split at done
      · cases done
        rfl
      · cases done

theorem treat_passedOver (grounded : Grounded job.output visit.host.tree)
    (passes : job.PassesOver visit) :
    ∃ event, ((∃ error, event = .memberSkipped visit.info.path error) ∨
        event = .memberBlocked visit.info.path) ∧
      job.treat visit = ⟨.ok { visit.tally with skipped := visit.tally.skipped + 1 },
        visit.session, visit.host.event event⟩ := by
  obtain ⟨next, done, counted⟩ := passes
  have prepares := visit.host.prepare_prepares job.output visit.info
  have blocked : ∀ {after : Host},
      visit.host.prepare job.output visit.info = (.blocked, after) → after = _ :=
    Host.prepare_blocked grounded
  rw [treat, unpackMember_prepare] at done ⊢
  generalize visit.host.prepare job.output visit.info = prepared at *
  cases prepares with
  | @refused error => exact ⟨_, .inl ⟨error, rfl⟩, rfl⟩
  | uncleared => cases done
  | @placed _ result =>
      cases result with
      | error => cases done
      | ok =>
          cases done
          simp at counted
  | unmade => cases done
  | blocked => exact ⟨_, .inr rfl, by rw [blocked rfl]⟩
  | uncreated => cases done
  | file => simp [fillFile_counted done, UnpackJob.counted] at counted

theorem treat_names {path : Path} {base : Location} (job : UnpackJob)
    (named : visit.host.tree.directory? path = some base) :
    (job.treat visit).host.tree.directory? path = some base := by
  have still := Host.prepare_names job.output visit.info named
  rw [treat, unpackMember_prepare]
  cases prepared : visit.host.prepare job.output visit.info with
  | mk preparation after =>
      rw [prepared] at still
      cases preparation with
      | refused => exact still
      | obstructed => exact still
      | directory => exact still
      | blocked => exact still
      | file location =>
          obtain ⟨_, _, _, creating⟩ := Host.created_of_prepare prepared
          obtain ⟨content, filled⟩ :=
            job.fillFile_tree visit.info.path location visit.tally visit.session after
          dsimp only
          rw [filled]
          exact directory?_keeps (fill_keeps creating content) still

theorem treat_grounded (grounded : Grounded job.output visit.host.tree) :
    Grounded job.output (job.treat visit).host.tree :=
  grounded.imp_right fun ⟨base, named⟩ => ⟨base, job.treat_names named⟩

theorem meets_grounded (tally : Tally) (session : Session) (header : Header)
    (grounded : Grounded job.output host.tree) :
    Grounded job.output (meets tally session host header).host.tree := by
  have same := (session.advance_extends host).tree
  rwa [← same] at grounded

theorem Goes.grounded {visits : List Visit} {final : Outcome (Except UnpackError Tally)}
    (goes : job.Goes tally session host visits final) (grounded : Grounded job.output host.tree) :
    ∀ visit ∈ visits, Grounded job.output visit.host.tree := by
  induction goes with
  | cancelled => simp
  | unreadable => simp
  | ended => simp
  | stopped =>
      intro visit member
      rw [List.mem_singleton.mp member]
      exact meets_grounded _ _ _ grounded
  | member _ _ _ _ ih =>
      intro visit member
      rcases List.mem_cons.mp member with first | later
      · rw [first]
        exact meets_grounded _ _ _ grounded
      · exact ih (treat_grounded (meets_grounded _ _ _ grounded)) visit later

end UnpackJob

theorem Unpacks.grounded {path output : Path} {options : UnpackOptions} {observer : Observer}
    {host : Host} {visits : List Visit} {result : Except UnpackError Tally × Host}
    (unpacks : Unpacks path output options observer host visits result) :
    ∀ visit ∈ visits, Grounded output visit.host.tree := by
  cases unpacks with
  | refused => simp
  | obstructed => simp
  | ran _ making goes => exact goes.grounded (grounded_of_made making)

end ArchiveTraversal
