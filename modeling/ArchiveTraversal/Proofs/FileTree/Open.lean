import ArchiveTraversal.Proofs.FileTree.Again
import ArchiveTraversal.Proofs.FileTree.Removal
import ArchiveTraversal.Proofs.Path.Prefixes

/-!
Ways that are open: nothing but directories stands on them. Below a directory without links, a path
of names that the system takes is found where its names lead, as long as the way there is open. So a
file is seen and removed where it stands, and all directories that are missing on the way are made.
-/

namespace ArchiveTraversal.FileTree

variable {tree : FileTree}

def FileAt (tree : FileTree) (location : Location) : Prop :=
  ∃ content, tree.at? location = some (.file content)

theorem vacant_of_file {location : Location} (proper : location ≠ [])
    (file : tree.FileAt location) : tree.Vacant location := by
  obtain ⟨content, stands⟩ := file
  refine ⟨proper, ?_, by simp [stands]⟩
  obtain ⟨above, last, rfl⟩ := (List.eq_nil_or_concat location).resolve_left proper
  rw [List.concat_eq_append] at stands ⊢
  have directory : tree.at? above = some .directory :=
    at?_directory_of_append (List.cons_ne_nil last []) (by simp [stands])
  obtain ⟨entries, found⟩ := at?_eq_directory_iff.mp directory
  exact ⟨entries, by rwa [List.dropLast_concat]⟩

theorem directory_above_file {base : Location} {above below : List Name}
    (file : tree.FileAt (base ++ (above ++ below))) (more : below ≠ []) :
    tree.at? (base ++ above) = some .directory := by
  obtain ⟨content, stands⟩ := file
  exact at?_directory_of_append more (by rw [List.append_assoc, stands]; simp)

/-- There is no more than one file on a way, as a file ends it. -/
theorem file_unique {base : Location} {names upper other : List Name} (shorter : upper <+: names)
    (shorterToo : other <+: names) (file : tree.FileAt (base ++ upper))
    (fileToo : tree.FileAt (base ++ other)) : other = upper := by
  have none_below : ∀ {above longer : List Name}, above <+: longer →
      tree.FileAt (base ++ above) → tree.FileAt (base ++ longer) → longer = above := by
    rintro above _ ⟨below, rfl⟩ ⟨content, stands⟩ inside
    by_cases more : below = []
    · rw [more, List.append_nil]
    · cases stands.symm.trans (directory_above_file inside more)
  rcases List.prefix_or_prefix_of_prefix shorter shorterToo with above | above
  · exact none_below above file fileToo
  · exact (none_below above fileToo file).symm

theorem remove_file_alters {base : Location} {upper : List Name} (some : upper ≠ [])
    (file : tree.FileAt (base ++ upper)) : Alters base tree (tree.remove (base ++ upper)) := by
  have view := (vacant_of_file (by simp [some]) file).at?_remove
  obtain ⟨content, stands⟩ := file
  refine ⟨workingDirectory_remove .., fun location apart => ?_, fun location directory => ?_,
    fun location target link => ?_⟩
  · rw [view, if_neg]
    rintro rfl
    exact apart ⟨upper, some, rfl⟩
  · rw [view, if_neg]
    · exact directory
    · rintro rfl
      cases stands.symm.trans directory
  · rw [view] at link
    split at link
    · cases link
    · exact link

/-- Down from a directory along some names there are directories, as far as there is anything. -/
def Open (tree : FileTree) (base : Location) (names : List Name) : Prop :=
  ∀ upper, upper <+: names →
    tree.at? (base ++ upper) = none ∨ tree.at? (base ++ upper) = some .directory

theorem Open.shorter {base : Location} {names more : List Name} (opened : tree.Open base more)
    (shorter : names <+: more) : tree.Open base names :=
  fun upper further => opened upper (further.trans shorter)

theorem Open.below {base : Location} {name : Name} {names : List Name}
    (opened : tree.Open base (name :: names)) : tree.Open (base ++ [name]) names := by
  intro upper shorter
  rw [List.append_assoc]
  exact opened (name :: upper) (by simpa using shorter)

theorem Open.no_file {base : Location} {names upper : List Name} (opened : tree.Open base names)
    (shorter : upper <+: names) : ¬ tree.FileAt (base ++ upper) := by
  rintro ⟨content, file⟩
  rcases opened upper shorter with nothing | directory
  · cases nothing.symm.trans file
  · cases directory.symm.trans file

theorem open_of_removed {base : Location} {names upper : List Name} (some : upper ≠ [])
    (shorter : upper <+: names) (file : tree.FileAt (base ++ upper)) :
    (tree.remove (base ++ upper)).Open base names := by
  intro other shorterToo
  simp only [tree.at?_remove _ _ (show base ++ upper ≠ [] by simp [some]),
    List.prefix_append_right_inj]
  -- Whatever is not below the file on the same way is above it.
  by_cases under : upper <+: other
  · exact .inl (if_pos under)
  · obtain ⟨between, rfl⟩ :=
      (List.prefix_or_prefix_of_prefix shorter shorterToo).resolve_left under
    have more : between ≠ [] := by
      rintro rfl
      exact under (by simp)
    rw [if_neg under]
    exact .inr (directory_above_file file more)

theorem not_onWay_further {base : Location} {above : List Name} {last : Name} :
    ¬ OnWay base above (base ++ (above ++ [last])) := by
  rintro ⟨upper, _, shorter, same⟩
  have length := shorter.length_le
  rw [← List.append_cancel_left same, List.length_append, List.length_singleton] at length
  omega

structure Usable (name : Name) : Prop where
  plain : Path.Plain name
  short : name.length ≤ longestName

theorem leads_below {links : Nat} {standing : Standing} {names : List Name}
    (stands : standing.Stands tree) (usable : ∀ name ∈ names, Usable name)
    (directory : tree.at? (standing.location ++ names) = some .directory) :
    ∃ final, Leads tree links standing names links final ∧
      final.location = standing.location ++ names := by
  induction names generalizing standing with
  | nil => exact ⟨standing, .arrived, (List.append_nil _).symm⟩
  | cons name rest ih =>
      obtain ⟨⟨_, notHere, notUp, _⟩, short⟩ := usable name List.mem_cons_self
      have first : OnWay standing.location (name :: rest) (standing.location ++ [name]) :=
        ⟨[name], by simp, by simp, rfl⟩
      obtain ⟨entries, found⟩ := at?_eq_directory_iff.mp (directory_of_onWay directory first)
      rw [← stands.lookup] at found
      obtain ⟨final, onwards, there⟩ := ih (stands.enter found)
        (fun other member => usable other (List.mem_cons_of_mem name member))
        (by rw [Standing.location_enter, List.append_assoc]; exact directory)
      refine ⟨final, .enter notHere notUp short found onwards, ?_⟩
      rw [there, Standing.location_enter, List.append_assoc, List.singleton_append]

theorem walk_last {purpose : Purpose} {links : Nat} {standing : Standing} {name : Name}
    (stands : standing.Stands tree) (usable : Usable name) (looking : purpose ≠ .create)
    (notLink : ∀ target, tree.at? (standing.location ++ [name]) ≠ some (.link target))
    (insists : Bool) :
    walk tree purpose links standing [name] insists =
      .ok ⟨standing.location ++ [name], tree.find? (standing.location ++ [name]), insists⟩ := by
  have place : ∀ node, standing.place name node insists =
      ⟨standing.location ++ [name], node, insists⟩ := by
    simp [Standing.place, Standing.location]
  rw [walk_name _ _ _ usable.plain.2.1 usable.plain.2.2.1, ← stands.lookup]
  simp only [looking, false_and, ↓reduceIte, Nat.not_lt.mpr usable.short, place, walk_nil,
    Standing.location_enter]
  cases found : standing.entries.lookup name with
  | none => rfl
  | some node =>
      cases node with
      | file content => rfl
      | directory entries => rfl
      | link target =>
          rw [stands.lookup, ← at?_eq_link_iff] at found
          exact absurd found (notLink target)

/-- A walk ends where the directories of an open way do. -/
theorem walk_missing {purpose : Purpose} {links : Nat} {standing : Standing}
    {above rest : List Name} {insists : Bool} (stands : standing.Stands tree)
    (usable : ∀ name ∈ above, Usable name)
    (opened : tree.Open standing.location above)
    (missing : tree.at? (standing.location ++ above) ≠ some .directory) (more : rest ≠ []) :
    walk tree purpose links standing (above ++ rest) insists =
      .error (.system SystemError.notFound) := by
  -- The way is walked as long as it is there, and ends before its names do: what all of them would
  -- lead to is no directory.
  induction above generalizing standing with
  | nil => exact absurd stands.at? (by simpa using missing)
  | cons name above ih =>
      obtain ⟨⟨_, notHere, notUp, _⟩, short⟩ := usable name List.mem_cons_self
      have notLast : above ++ rest ≠ [] := by simp [more]
      rw [List.cons_append, walk_name _ _ _ notHere notUp]
      simp only [notLast, false_and, and_false, ↓reduceIte, Nat.not_lt.mpr short]
      rcases opened [name] (by simp) with nothing | directory
      · rw [at?_eq_none_iff, ← stands.lookup] at nothing
        rw [nothing]
      · obtain ⟨entries, found⟩ := at?_eq_directory_iff.mp directory
        rw [← stands.lookup] at found
        rw [found]
        refine ih (stands.enter found)
          (fun other member => usable other (List.mem_cons_of_mem name member)) ?_ ?_
        · rw [Standing.location_enter]
          exact opened.below
        · rw [Standing.location_enter, List.append_assoc]
          exact missing

section

variable {output path : Path} {base : Location} {above : List Name} {last : Name}

theorem Clear.follow_found {purpose : Purpose} (clear : tree.Clear output base)
    (spells : path.Spells output (above ++ [last]))
    (usable : ∀ name ∈ above ++ [last], Usable name)
    (directory : tree.at? (base ++ above) = some .directory) (looking : purpose ≠ .create)
    (insists : Bool) :
    tree.follow purpose insists path =
      .ok ⟨base ++ (above ++ [last]), tree.find? (base ++ (above ++ [last])), insists⟩ := by
  obtain ⟨left, final, reaches, rfl⟩ := directory?_eq_some_iff.mp clear.named
  obtain ⟨between, leads, there⟩ := leads_below reaches.stands
    (fun name member => usable name (List.mem_append_left _ member)) directory
  have notLink : ∀ target, tree.at? (between.location ++ [last]) ≠ some (.link target) := by
    rw [there, List.append_assoc]
    exact clear.linkless _ ⟨above ++ [last], by simp, rfl⟩
  rw [reaches.follow spells.absolute spells.ends (by rw [spells.names, List.append_assoc]),
    leads.walk_append (by simp),
    walk_last (leads.stands reaches.stands) (usable last (by simp)) looking notLink, there,
    List.append_assoc]

theorem Clear.follow_missing {purpose : Purpose} (clear : tree.Clear output base)
    (spells : path.Spells output (above ++ [last]))
    (usable : ∀ name ∈ above ++ [last], Usable name) (opened : tree.Open base above)
    (missing : tree.at? (base ++ above) ≠ some .directory) (insists : Bool) :
    tree.follow purpose insists path = .error (.system SystemError.notFound) := by
  obtain ⟨left, final, reaches, rfl⟩ := directory?_eq_some_iff.mp clear.named
  rw [reaches.follow spells.absolute spells.ends (by rw [spells.names, List.append_assoc])]
  exact walk_missing reaches.stands
    (fun name member => usable name (List.mem_append_left _ member)) opened missing (by simp)

theorem Clear.follow_file {purpose : Purpose} (clear : tree.Clear output base)
    (spells : path.Spells output (above ++ [last]))
    (usable : ∀ name ∈ above ++ [last], Usable name)
    (file : tree.FileAt (base ++ (above ++ [last]))) (looking : purpose ≠ .create) :
    ∃ content, tree.follow purpose false path =
      .ok ⟨base ++ (above ++ [last]), some (.file content), false⟩ := by
  have directory := directory_above_file file (List.cons_ne_nil last [])
  obtain ⟨content, stands⟩ := file
  have gets := clear.follow_found spells usable directory looking false
  rw [at?_eq_file_iff.mp stands] at gets
  exact ⟨content, gets⟩

theorem Clear.isFile_of_file (clear : tree.Clear output base)
    (spells : path.Spells output (above ++ [last]))
    (usable : ∀ name ∈ above ++ [last], Usable name) (accepted : refusal path = none)
    (bare : path.endsInSeparator = false) (file : tree.FileAt (base ++ (above ++ [last]))) :
    tree.isFile path = true := by
  obtain ⟨content, gets⟩ := clear.follow_file spells usable file
    (show Purpose.inspect ≠ .create by decide)
  simp only [isFile, metadata, lookup, accepted, bare, gets]
  rfl

theorem Clear.removeFile_of_file (clear : tree.Clear output base)
    (spells : path.Spells output (above ++ [last]))
    (usable : ∀ name ∈ above ++ [last], Usable name) (accepted : refusal path = none)
    (bare : path.endsInSeparator = false) (file : tree.FileAt (base ++ (above ++ [last]))) :
    tree.removeFile path = .ok (tree.remove (base ++ (above ++ [last]))) := by
  obtain ⟨content, gets⟩ := clear.follow_file spells usable file
    (show Purpose.takeLink ≠ .create by decide)
  simp only [removeFile, lookup, accepted, bare, gets]
  rfl

theorem Clear.makeDirectory_new (clear : tree.Clear output base)
    (spells : path.Spells output (above ++ [last]))
    (usable : ∀ name ∈ above ++ [last], Usable name) (accepted : refusal path = none)
    (directory : tree.at? (base ++ above) = some .directory)
    (absent : tree.at? (base ++ (above ++ [last])) = none) :
    ∃ grown, tree.makeDirectory path = .ok grown := by
  have gets := clear.follow_found spells usable directory
    (show Purpose.takeLink ≠ .create by decide) false
  rw [at?_eq_none_iff] at absent
  exact ⟨_, by simp only [makeDirectory, lookup, accepted, gets, absent]; rfl⟩

theorem Clear.resolves_of_directory (clear : tree.Clear output base)
    (spells : path.Spells output (above ++ [last]))
    (usable : ∀ name ∈ above ++ [last], Usable name) (accepted : refusal path = none)
    (directory : tree.at? (base ++ (above ++ [last])) = some .directory) :
    tree.Resolves path (base ++ (above ++ [last])) := by
  have upper : tree.at? (base ++ above) = some .directory :=
    at?_directory_of_append (List.cons_ne_nil last []) (by rw [List.append_assoc, directory]; simp)
  have gets := clear.follow_found spells usable upper
    (show Purpose.inspect ≠ .create by decide) true
  obtain ⟨entries, found⟩ := at?_eq_directory_iff.mp directory
  rw [found] at gets
  exact ⟨entries, true, by simp only [lookup, accepted, gets]⟩

end

theorem Clear.file_of_isFile {output path : Path} {base : Location} {names : List Name}
    (clear : tree.Clear output base) (spells : path.Spells output names) (some : names ≠ [])
    (plain : ∀ name ∈ names, Path.Plain name) (is : tree.isFile path = true) :
    tree.FileAt (base ++ names) := by
  obtain ⟨_, _, content, _, gets⟩ := isFile_ok is
  exact ⟨content, at?_eq_file_iff.mpr (clear.follow_ok spells some plain gets).2⟩

theorem Clear.base_directory {output : Path} {base : Location} (clear : tree.Clear output base) :
    tree.at? base = some .directory := by
  obtain ⟨left, final, reaches, rfl⟩ := directory?_eq_some_iff.mp clear.named
  exact reaches.stands.at?

theorem Clear.open_of_no_file {output : Path} {base : Location} {names : List Name}
    (clear : tree.Clear output base)
    (none : ∀ upper, upper <+: names → ¬ tree.FileAt (base ++ upper)) : tree.Open base names := by
  intro upper shorter
  by_cases empty : upper = []
  · rw [empty, List.append_nil]
    exact .inr clear.base_directory
  cases stands : tree.at? (base ++ upper) with
  | none => exact .inl rfl
  | some shape =>
      cases shape with
      | file content => exact absurd ⟨content, stands⟩ (none upper shorter)
      | link target => exact absurd stands (clear.linkless _ ⟨upper, empty, rfl⟩ target)
      | directory => exact .inr rfl

theorem refusal_of_shorter {path upper : Path} (accepted : refusal path = none)
    (shorter : upper <+: path) : upper = [] ∨ refusal upper = none := by
  have bytes := shorter.subset
  have length := shorter.length_le
  unfold refusal at accepted ⊢
  grind

theorem Clear.makeDirectories_base {output path : Path} {base : Location}
    (clear : tree.Clear output base) (absolute : path.isAbsolute = output.isAbsolute)
    (names : path.names = output.names) (accepted : path = [] ∨ refusal path = none) :
    tree.makeDirectories path = (.ok (), tree) := by
  rcases accepted with rfl | accepted
  · rfl
  · obtain ⟨left, final, reaches, there⟩ := directory?_eq_some_iff.mp clear.named
    have named := directory?_eq_some_iff.mpr ⟨left, final, reaches.congr absolute names, there⟩
    exact (resolves_iff.mpr ⟨accepted, named⟩).makeDirectories

/-- On an open way all directories can be made. -/
theorem Clear.makeDirectories_ok {output path : Path} {base : Location} {names : List Name}
    (clear : tree.Clear output base) (spells : path.Spells output names)
    (usable : ∀ name ∈ names, Usable name) (accepted : path = [] ∨ refusal path = none)
    (opened : tree.Open base names) : (tree.makeDirectories path).1 = .ok () := by
  -- From the last name up: either its parent is there, or that is made first.
  induction names using List.reverseRecOn generalizing path with
  | nil =>
      rw [clear.makeDirectories_base spells.absolute (by simpa using spells.names) accepted]
  | append_singleton above last ih =>
      obtain ⟨parent, found, spellsParent⟩ := spells.parent?
      have nonempty : path ≠ [] := by
        rintro rfl
        cases found
      have accepted := accepted.resolve_left nonempty
      rcases opened _ (List.prefix_refl _) with absent | directory
      · have upperUsable : ∀ name ∈ above, Usable name := fun name member =>
          usable name (List.mem_append_left _ member)
        have upperOpen := opened.shorter (List.prefix_append above [last])
        rw [makeDirectories, Path.ancestors_of_parent found]
        simp only [FileTree.makeInside]
        by_cases directory : tree.at? (base ++ above) = some .directory
        · obtain ⟨grown, made⟩ := clear.makeDirectory_new spells usable accepted directory absent
          rw [made]
        · have missing : tree.makeDirectory path = .error (.system SystemError.notFound) := by
            simp only [makeDirectory, lookup, accepted,
              clear.follow_missing spells usable upperOpen directory]
          have outer := ih spellsParent upperUsable
            (refusal_of_shorter accepted (Path.parent?_shorter found)) upperOpen
          have paves := clear.makeInside spellsParent fun name member =>
            (upperUsable name member).plain
          unfold makeDirectories at outer
          rw [missing]
          generalize tree.makeInside parent.ancestors = inside at outer paves ⊢
          obtain ⟨result, grown⟩ := inside
          cases outer
          have some : above ≠ [] := by
            rintro rfl
            exact directory (by simpa using clear.base_directory)
          have there := paves.complete rfl _ ⟨above, some, List.prefix_refl above, rfl⟩
          have still : grown.at? (base ++ (above ++ [last])) = none :=
            ((paves.within _).resolve_right not_onWay_further).trans absent
          obtain ⟨further, made⟩ :=
            (clear.alters paves.alters).makeDirectory_new spells usable accepted there still
          simp only [↓reduceIte, made]
      · rw [(clear.resolves_of_directory spells usable accepted directory).makeDirectories]

end ArchiveTraversal.FileTree
