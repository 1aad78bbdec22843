import ArchiveTraversal.Proofs.FileTree.Open
import ArchiveTraversal.Proofs.Unpack.Reprise

/-!
Clearing the way to a member, and making it. A file that stands on the way ends it, so there is at
most one; once it is gone, nothing is left that a directory could not be made in the place of.
-/

namespace ArchiveTraversal

open FileTree

namespace FileTree

variable {tree : FileTree} {output : Path} {base : Location}

theorem Clear.descend {name : Name} (clear : tree.Clear output base) (usable : Usable name)
    (accepted : refusal (output.join name) = none)
    (directory : tree.at? (base ++ [name]) = some .directory) :
    tree.Clear (output.join name) (base ++ [name]) := by
  have usableOnly : ∀ other ∈ [name], Usable other := by simpa using usable
  have spells : (output.join name).Spells output ([] ++ [name]) :=
    Path.spells_join_name output usable.plain
  constructor
  · exact (resolves_iff.mp (clear.resolves_of_directory spells usableOnly accepted directory)).2
  · rintro location ⟨below, some, rfl⟩
    exact clear.linkless _ ⟨name :: below, by simp, by simp⟩

theorem Clear.makeDirectories_open {names : List Name} (clear : tree.Clear output base)
    (usable : ∀ name ∈ names, Usable name) (opened : tree.Open base names)
    (accepted : output.join (Path.glue names) = [] ∨
      refusal (output.join (Path.glue names)) = none) :
    let made := tree.makeDirectories (output.join (Path.glue names))
    made.1 = .ok () ∧
    (∀ upper, upper <+: names → made.2.at? (base ++ upper) = some .directory) ∧
    ∀ location, made.2.at? location = tree.at? location ∨
      tree.at? location = none ∧ OnWay base names location := by
  intro made
  -- Without names the path is the output directory's own, up to a separator, and spells nothing.
  by_cases none : names = []
  · subst none
    have same : made = (.ok (), tree) :=
      clear.makeDirectories_base (Path.isAbsolute_join output [] rfl)
        ((Path.names_join output [] rfl).trans (List.append_nil _)) accepted
    rw [same]
    refine ⟨rfl, fun upper shorter => ?_, fun _ => .inl rfl⟩
    rw [List.prefix_nil.mp shorter, List.append_nil]
    exact clear.base_directory
  · have plain : ∀ name ∈ names, Path.Plain name := fun name among => (usable name among).plain
    have spells := Path.spells_join output none plain
    have ok : made.1 = .ok () := clear.makeDirectories_ok spells usable accepted opened
    have paves : Paves base names tree made := clear.makeInside spells plain
    refine ⟨ok, fun upper shorter => ?_, fun location => ?_⟩
    · by_cases empty : upper = []
      · rw [empty, List.append_nil]
        exact paves.grows.stays clear.base_directory
      · exact paves.complete ok _ ⟨upper, empty, shorter, rfl⟩
    · rcases paves.grows.view location with same | ⟨absent, _⟩
      · exact .inl same
      · exact (paves.within location).imp_right fun onWay => ⟨absent, onWay⟩

end FileTree

namespace Host

variable {host : Host} {output : Path} {base : Location} {names : List Name}

def replaced (host : Host) (path : Path) (location : Location) : Host :=
  { host.event (.fileReplaced path) with tree := host.tree.remove location }

theorem clearFiles_of_no_file (clear : host.tree.Clear output base)
    (plain : ∀ name ∈ names, Path.Plain name)
    (none : ∀ upper, upper <+: names.dropLast → ¬ host.tree.FileAt (base ++ upper)) :
    host.clearFiles (output.leadingTo names) = (.ok (), host) := by
  apply clearFiles_of_none
  intro path member
  obtain ⟨above, below, rfl, some, more, spells⟩ := Path.spells_leadingTo plain member
  rw [Bool.eq_false_iff]
  intro is
  have file := clear.file_of_isFile spells some
    (fun name among => plain name (List.mem_append_left below among)) is
  refine none above ?_ file
  rw [List.dropLast_append_of_ne_nil more]
  exact List.prefix_append above _

section

variable {first : Name} (clear : host.tree.Clear output base) (usable : Usable first)
  (accepted : refusal (output.join first) = none)

include clear usable

theorem clearFiles_of_nothing (plain : ∀ name ∈ names, Path.Plain name)
    (nothing : ∀ below, below ≠ [] → host.tree.at? (base ++ first :: below) = none) :
    host.clearFiles ((output.join first).leadingTo names) = (.ok (), host) := by
  apply clearFiles_of_none
  intro path member
  obtain ⟨above, below, rfl, some, _, spells⟩ := Path.spells_leadingTo plain member
  have plainAbove : ∀ name ∈ [first] ++ above, Path.Plain name :=
    List.forall_mem_cons.mpr
      ⟨usable.plain, fun name among => plain name (List.mem_append_left below among)⟩
  have whole := (Path.spells_join_name output usable.plain).trans spells
  rw [Bool.eq_false_iff]
  intro is
  obtain ⟨content, file⟩ := clear.file_of_isFile whole (by simp) plainAbove is
  cases (nothing above some).symm.trans file

include accepted

/-- A file under the first name is removed. It has been the end of the way, so it is the only
one. -/
theorem clearFiles_of_first_file (plain : ∀ name ∈ names, Path.Plain name)
    (file : host.tree.FileAt (base ++ [first])) :
    host.clearFiles (output.join first :: (output.join first).leadingTo names) =
      (.ok (), host.replaced (output.join first) (base ++ [first])) := by
  have usableOnly : ∀ name ∈ [] ++ [first], Usable name := by simpa using usable
  have spells : (output.join first).Spells output ([] ++ [first]) :=
    Path.spells_join_name output usable.plain
  have bare := Path.endsInSeparator_join_name output usable.plain
  have is := clear.isFile_of_file spells usableOnly accepted bare file
  have removed := clear.removeFile_of_file spells usableOnly accepted bare file
  have still := clear.alters (remove_file_alters (List.cons_ne_nil first []) file)
  have same : (host.event (.fileReplaced (output.join first))).tree = host.tree := rfl
  rw [clearFiles, if_pos is]
  dsimp only
  rw [same, removed]
  refine @clearFiles_of_nothing (host.replaced _ _) _ _ _ _ still usable plain ?_
  intro below _
  have under : base ++ [first] <+: base ++ first :: below := by simp
  exact (host.tree.at?_remove _ _ (by simp)).trans (if_pos under)

omit accepted in
theorem clearFiles_of_first_directory {paths : List Path}
    (directory : host.tree.at? (base ++ [first]) = some .directory) :
    host.clearFiles (output.join first :: paths) = host.clearFiles paths := by
  have notFile : ¬ host.tree.isFile (output.join first) = true := by
    intro is
    obtain ⟨content, file⟩ := clear.file_of_isFile (Path.spells_join_name output usable.plain)
      (by simp) (by simpa using usable.plain) is
    cases directory.symm.trans file
  rw [clearFiles, if_neg notFile]

end

theorem clearFiles_of_file (clear : host.tree.Clear output base)
    (usable : ∀ name ∈ names, Usable name)
    (accepted : refusal (output.join (Path.glue names)) = none) {upper : List Name}
    (some : upper ≠ []) (shorter : upper <+: names.dropLast)
    (file : host.tree.FileAt (base ++ upper)) :
    host.clearFiles (output.leadingTo names) =
      (.ok (), host.replaced (output.join (Path.glue upper)) (base ++ upper)) := by
  -- The induction goes down the way, and the output directory goes with it: what is below its first
  -- name is the same question about `output.join first`.
  induction names generalizing output base upper with
  | nil => exact absurd (List.prefix_nil.mp shorter) some
  | cons name rest ih =>
      cases rest with
      | nil => exact absurd (List.prefix_nil.mp shorter) some
      | cons next below =>
          obtain ⟨first, others, rfl⟩ := List.exists_cons_of_ne_nil some
          rw [List.dropLast_cons_cons, List.cons_prefix_cons] at shorter
          obtain ⟨rfl, shorter⟩ := shorter
          obtain ⟨usableFirst, usableBelow⟩ := List.forall_mem_cons.mp usable
          have plain : ∀ name ∈ first :: next :: below, Path.Plain name := fun name among =>
            (usable name among).plain
          obtain ⟨plainFirst, plainBelow⟩ := List.forall_mem_cons.mp plain
          have begins : output.join first <+: output.join (Path.glue (first :: next :: below)) :=
            Path.join_shorter output (Path.isAbsolute_glue _ plain)
              (Path.glue_shorter (List.cons_ne_nil first []) (by simp))
          have acceptedFirst : refusal (output.join first) = none :=
            (refusal_of_shorter accepted begins).resolve_left
              (Path.join_ne_nil output plainFirst.1)
          rw [Path.leadingTo]
          cases others with
          | nil => exact clearFiles_of_first_file clear usableFirst acceptedFirst plainBelow file
          | cons second more =>
              have directory : host.tree.at? (base ++ [first]) = Option.some .directory :=
                @directory_above_file _ base [first] _ file (List.cons_ne_nil second more)
              have inner := ih (clear.descend usableFirst acceptedFirst directory) usableBelow
                (by rwa [Path.join_join_glue output plainFirst plainBelow (by simp)])
                (List.cons_ne_nil second more) shorter (by simpa using file)
              have plainMore : ∀ name ∈ second :: more, Path.Plain name := fun name among =>
                plainBelow name (List.mem_of_mem_dropLast (shorter.subset among))
              rw [clearFiles_of_first_directory clear usableFirst directory, inner,
                Path.join_join_glue output plainFirst plainMore (by simp), List.append_assoc,
                List.singleton_append]

theorem clearFiles_cases (clear : host.tree.Clear output base)
    (usable : ∀ name ∈ names, Usable name)
    (accepted : refusal (output.join (Path.glue names)) = none) :
    (∀ upper, upper <+: names.dropLast → ¬ host.tree.FileAt (base ++ upper)) ∧
        host.clearFiles (output.leadingTo names) = (.ok (), host) ∨
      ∃ upper, upper ≠ [] ∧ upper <+: names.dropLast ∧ host.tree.FileAt (base ++ upper) ∧
        host.clearFiles (output.leadingTo names) =
          (.ok (), host.replaced (output.join (Path.glue upper)) (base ++ upper)) := by
  by_cases blocked : ∃ upper, upper <+: names.dropLast ∧ host.tree.FileAt (base ++ upper)
  · obtain ⟨upper, shorter, file⟩ := blocked
    have some : upper ≠ [] := by
      rintro rfl
      obtain ⟨content, stands⟩ := file
      rw [List.append_nil] at stands
      cases clear.base_directory.symm.trans stands
    exact .inr ⟨upper, some, shorter, file,
      clearFiles_of_file clear usable accepted some shorter file⟩
  · have none : ∀ upper, upper <+: names.dropLast → ¬ host.tree.FileAt (base ++ upper) :=
      fun upper shorter file => blocked ⟨upper, shorter, file⟩
    exact .inl ⟨none, clearFiles_of_no_file clear (fun name among => (usable name among).plain)
      none⟩

end Host

/-- Clearing the way to a member does what making it needs. There are no links below the output
directory; the member's path is as paths are accepted, its names are no longer than names may be,
and the system takes the path to the member: it is no longer than paths may be, and has no zero
byte. Then clearing succeeds. If there is a file on the way to the member, it is the only one, so
the first; it is removed, which the log tells, and all else stays: what stands for the member
itself, directories, and files beside the way. After that no file is on the way, and to make the
member's directory succeeds: just the directories that are missing on the way are new. -/
theorem clearFileAncestors_opens_way {host : Host} {output relative : Path} {base : Location}
    (clear : host.tree.Clear output base) (normalized : Safety.memberPath relative = .ok relative)
    (short : ∀ name ∈ relative.names, name.length ≤ longestName)
    (accepted : refusal (output.join relative) = none) :
    let above := relative.names.dropLast
    let cleared := host.clearFileAncestors output relative
    let made := cleared.2.tree.makeDirectories (output.join (relative.parent?.getD []))
    cleared.1 = .ok () ∧
    ((∀ upper, upper <+: above → ¬ host.tree.FileAt (base ++ upper)) ∧ cleared.2 = host ∨
      ∃ upper, upper ≠ [] ∧ upper <+: above ∧ host.tree.FileAt (base ++ upper) ∧
        (∀ other, other <+: above → host.tree.FileAt (base ++ other) → other = upper) ∧
        cleared.2 = { host.event (.fileReplaced (output.join (Path.glue upper))) with
          tree := host.tree.remove (base ++ upper) } ∧
        ∀ location, cleared.2.tree.at? location =
          if location = base ++ upper then none else host.tree.at? location) ∧
    (∀ upper, upper <+: above → ¬ cleared.2.tree.FileAt (base ++ upper)) ∧
    made.1 = .ok () ∧
    (∀ upper, upper <+: above → made.2.at? (base ++ upper) = some .directory) ∧
    ∀ location, made.2.at? location = cleared.2.tree.at? location ∨
      cleared.2.tree.at? location = none ∧ OnWay base above location := by
  intro above cleared made
  obtain ⟨some, plain, glued⟩ := Safety.memberPath_ok normalized
  have usable : ∀ name ∈ relative.names, Usable name := fun name among =>
    ⟨plain name among, short name among⟩
  have usableAbove : ∀ name ∈ above, Usable name := fun name among =>
    usable name (List.mem_of_mem_dropLast among)
  have split : relative.names = above ++ [relative.names.getLast some] :=
    (List.dropLast_concat_getLast some).symm
  have parent : relative.parent? = Option.some (Path.glue above) := by
    rw [glued, split]
    exact Path.parent?_glue (split ▸ plain)
  have upperAccepted := refusal_of_shorter accepted (Path.join_shorter output
    (by rw [glued]; exact Path.isAbsolute_glue _ plain) (Path.parent?_shorter parent))
  have whole : relative.parent?.getD [] = Path.glue above := by rw [parent, Option.getD_some]
  -- What is made, once the way is open.
  have making (still : cleared.2.tree.Clear output base)
      (opened : cleared.2.tree.Open base above) :=
    still.makeDirectories_open usableAbove opened upperAccepted
  rw [← whole] at making
  have cases := Host.clearFiles_cases clear usable (glued ▸ accepted)
  rw [← Host.clearFileAncestors] at cases
  rcases cases with ⟨none, same⟩ | ⟨upper, someUpper, shorter, file, removed⟩
  · have left : cleared.2 = host := congrArg Prod.snd same
    have opened : cleared.2.tree.Open base above := by
      rw [left]
      exact clear.open_of_no_file none
    refine ⟨congrArg Prod.fst same, .inl ⟨none, left⟩, fun upper => opened.no_file,
      making ?_ opened⟩
    rw [left]
    exact clear
  · have left : cleared.2 = host.replaced (output.join (Path.glue upper)) (base ++ upper) :=
      congrArg Prod.snd removed
    have opened : cleared.2.tree.Open base above := by
      rw [left]
      exact open_of_removed someUpper shorter file
    have still : cleared.2.tree.Clear output base := by
      rw [left]
      exact clear.alters (remove_file_alters someUpper file)
    refine ⟨congrArg Prod.fst removed, .inr ⟨upper, someUpper, shorter, file,
      fun other shorterToo fileToo => file_unique shorter shorterToo file fileToo, left, ?_⟩,
      fun upper => opened.no_file, making still opened⟩
    rw [left]
    exact (vacant_of_file (by simp [someUpper]) file).at?_remove

/-- Of two files in the output directory one is on the way to the member, and gives way. The other
one, and what is to be the member itself, are not touched. -/
theorem blocked_way_opened :
    let a : Name := [0x61]
    let b : Name := [0x62]
    let apart : FileTree := { entries := [(b, .file [2])] }
    let host : Host := { tree := apart.put [a] (.file [1]) }
    let relative := Path.glue [a, b, b]
    let cleared := host.clearFileAncestors Path.here relative
    let made := cleared.2.tree.makeDirectories (Path.join Path.here (relative.parent?.getD []))
    host.tree.FileAt [a] ∧ cleared.1 = .ok () ∧ cleared.2.tree.at? [a] = none ∧
      made.1 = .ok () ∧ made.2.at? [a, b] = some .directory ∧ made.2.at? [a, b, b] = none ∧
      made.2.at? [b] = some (.file [2]) := by
  intro a b apart host relative cleared made
  have vacant : apart.Vacant [a] := ⟨by simp, ⟨_, rfl⟩, by decide⟩
  have view := vacant.at?_put_file [1]
  have file : host.tree.FileAt [a] := ⟨[1], view [a]⟩
  have clear : host.tree.Clear Path.here [] := by
    refine ⟨by cbv, fun location _ target link => ?_⟩
    exact at?_single_ne_link b [2] location target
      (vacant.put_noNewLinks [1] location target link)
  obtain ⟨ok, removed, -, makes, directories, elsewhere⟩ :=
    clearFileAncestors_opens_way clear (show Safety.memberPath relative = .ok relative by cbv)
      (by decide) (by decide)
  have above : relative.names.dropLast = [a, b] := by decide
  rw [above] at removed directories elsewhere
  rcases removed with ⟨none, _⟩ | ⟨upper, _, _, _, only, _, left⟩
  · exact absurd file (none [a] (by decide))
  · cases only [a] (by decide) file
    have untouched (location : Location) (aside : location ≠ [a])
        (further : ¬ OnWay [] [a, b] location) : made.2.at? location = apart.at? location := by
      rw [(elsewhere location).resolve_right fun new => further new.2, left location,
        List.nil_append, if_neg aside]
      exact (view location).trans (if_neg aside)
    refine ⟨file, ok, left [a], makes, directories [a, b] (by decide), ?_, ?_⟩
    · refine (untouched [a, b, b] (by decide) ?_).trans (by decide)
      exact @not_onWay_further [] [a, b] b
    · refine (untouched [b] (by decide) ?_).trans (by decide)
      rintro ⟨upper, _, shorter, rfl⟩
      exact absurd shorter (by decide)

end ArchiveTraversal
