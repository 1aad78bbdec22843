import ArchiveTraversal.Proofs.FileTree.Below
import ArchiveTraversal.Proofs.FileTree.Content

/-!
What has been done through a path and is done once more, when other things have been done since. As
long as no directory has gone and no link has come or gone, the path leads to where it led before.
So the directories that were made are there and need no making, and a file that was created is
created again, unless a directory has taken its place.
-/

namespace ArchiveTraversal.FileTree

structure Lasts (before after : FileTree) : Prop extends Keeps before after where
  noNewLinks : NoNewLinks before after

theorem Lasts.refl (tree : FileTree) : Lasts tree tree :=
  ⟨⟨rfl, fun _ directory => directory, fun _ _ link => link⟩, .refl tree⟩

theorem Lasts.trans {before between after : FileTree} (first : Lasts before between)
    (second : Lasts between after) : Lasts before after :=
  ⟨first.toKeeps.trans second.toKeeps, first.noNewLinks.trans second.noNewLinks⟩

theorem Clear.lasts {tree after : FileTree} {output : Path} {base : Location}
    (clear : tree.Clear output base) (alters : Alters base tree after) : Lasts tree after :=
  ⟨clear.keeps alters, alters.noNewLinks⟩

theorem Grows.lasts {before after : FileTree} (grows : Grows before after) : Lasts before after :=
  ⟨grows.keeps, grows.noNewLinks⟩

variable {tree made after : FileTree} {path : Path}

theorem Reaches.inspects {left : Nat} {final : Standing} (reaches : tree.Reaches path left final)
    (insists : Bool) :
    ∃ insisted, tree.follow .inspect insists path =
      .ok ⟨final.location, some (.directory final.entries), insisted⟩ := by
  obtain ⟨standing, starts, leads⟩ := reaches.leads_segments
  obtain ⟨insisted, gets⟩ := leads.walk_inspect insists
  exact ⟨insisted, by simp only [FileTree.follow, starts, gets]⟩

theorem Resolves.metadata {base : Location} (resolves : tree.Resolves path base) :
    ∃ entries, tree.metadata path = .ok (.directory entries) := by
  obtain ⟨accepted, named⟩ := resolves_iff.mp resolves
  obtain ⟨left, final, reaches, _⟩ := directory?_eq_some_iff.mp named
  obtain ⟨insisted, gets⟩ := reaches.inspects path.endsInSeparator
  exact ⟨final.entries, by simp only [FileTree.metadata, lookup, accepted, gets]⟩

theorem Resolves.isDirectory {base : Location} (resolves : tree.Resolves path base) :
    tree.isDirectory path = true := by
  obtain ⟨entries, found⟩ := resolves.metadata
  simp only [FileTree.isDirectory, found]

theorem isDirectory_resolves (is : tree.isDirectory path = true) :
    ∃ base, tree.Resolves path base := by
  obtain ⟨base, named⟩ := isDirectory_named is
  refine ⟨base, resolves_iff.mpr ⟨?_, named⟩⟩
  cases refused : refusal path with
  | none => rfl
  | some error => simp [isDirectory, metadata, lookup, refused] at is

theorem Resolves.nonempty {base : Location} (resolves : tree.Resolves path base) : path ≠ [] := by
  rintro rfl
  cases (resolves_iff.mp resolves).1

theorem Resolves.makeDirectories {base : Location} (resolves : tree.Resolves path base) :
    tree.makeDirectories path = (.ok (), tree) := by
  obtain ⟨left, final, reaches, _⟩ := directory?_eq_some_iff.mp (resolves_iff.mp resolves).2
  obtain ⟨above, paths⟩ := Path.ancestors_of_nonempty resolves.nonempty
  obtain ⟨error, refused, other⟩ := makeDirectory_of_reaches reaches resolves.nonempty
  simp only [FileTree.makeDirectories, paths, makeInside, refused, other, resolves.isDirectory,
    ↓reduceIte]

theorem makeDirectories_again (making : tree.makeDirectories path = (.ok (), made))
    (keeps : Keeps made after) : after.makeDirectories path = (.ok (), after) := by
  by_cases empty : path = []
  · rw [empty]
    rfl
  · obtain ⟨base, resolves⟩ := makeDirectories_resolves empty making
    exact (resolves.keeps keeps).makeDirectories

/-- A path that a file has been created by leads to its location again. Unless there is a directory
by then, the file is created again. -/
theorem createFile_again {location : Location} {opened : FileTree}
    (created : made.createFile path = .ok (location, opened)) (lasts : Lasts opened after) :
    after.isDirectory path = true ∨ after.isDirectory path = false ∧
      ∃ reopened, after.createFile path = .ok (location, reopened) := by
  have keeps := (createFile_keeps created).trans lasts.toKeeps
  unfold createFile at created
  split at created
  · cases created
  · cases created
  rename_i place node insisted leaf looked
  cases created
  obtain ⟨accepted, gets⟩ := lookup_ok looked
  have vacant := (vacant_of_follow gets leaf).1
  have written := vacant.at?_put_file [] location
  rw [if_pos rfl] at written
  have noLink : ∀ target, after.at? location ≠ some (.link target) := by
    intro target link
    cases written.symm.trans (lasts.noNewLinks location target link)
  obtain ⟨found, lenient⟩ :=
    follow_keeps keeps .inspect (by simp) (by simp) (by simp) gets leaf noLink
  obtain ⟨foundAgain, _⟩ :=
    follow_keeps keeps .create (by simp) (by simp) (by simp) gets leaf noLink
  dsimp only at found foundAgain lenient
  rw [lenient rfl] at found foundAgain
  simp only [isDirectory, metadata, createFile, lookup, accepted, found, foundAgain]
  cases stands : after.find? location with
  | none => exact .inr ⟨rfl, _, rfl⟩
  | some other =>
      cases other with
      | file content => exact .inr ⟨rfl, _, rfl⟩
      | directory entries => exact .inl rfl
      | link target => exact absurd (at?_eq_link_iff.mpr stands) (noLink target)

theorem metadata_again {node : Node} (read : tree.metadata path = .ok node)
    (keeps : Keeps tree after)
    (still : ∀ place content, tree.lookup .inspect path.endsInSeparator path = .ok place →
      tree.find? place.location = some (.file content) →
      after.find? place.location = some (.file content)) :
    ∃ again, after.metadata path = .ok again ∧ again.shape = node.shape := by
  unfold metadata at read
  split at read
  · cases read
  · cases read
  · rename_i location entries insisted looked
    cases read
    obtain ⟨accepted, gets⟩ := lookup_ok looked
    obtain ⟨left, final, reaches, there⟩ := reaches_of_follow gets
    -- A directory is kept, and so is the way that led to it.
    have named : tree.directory? path = some location :=
      directory?_eq_some_iff.mpr ⟨left, final, reaches, there⟩
    obtain ⟨others, found⟩ := ((resolves_iff.mpr ⟨accepted, named⟩).keeps keeps).metadata
    exact ⟨_, found, rfl⟩
  · rename_i location stood insisted leaf looked
    split at read
    · cases read
    rename_i lenient
    rw [Bool.not_eq_true] at lenient
    cases read
    obtain ⟨accepted, gets⟩ := lookup_ok looked
    have notDirectory : ∀ entries, some node ≠ some (.directory entries) := by
      rintro entries ⟨⟩
      exact leaf entries rfl
    obtain ⟨_, stands, notLink⟩ := vacant_of_follow gets notDirectory
    dsimp only at stands notLink
    cases node with
    | directory entries => exact absurd rfl (notDirectory entries)
    | link target => exact absurd (notLink target rfl) (by simp)
    | file content =>
        -- A file may be replaced; that it has not been is what is asked of this one.
        have there := still _ content looked stands
        have noLink : ∀ target, after.at? location ≠ some (.link target) := by
          intro target link
          cases there.symm.trans (at?_eq_link_iff.mp link)
        obtain ⟨found, _⟩ :=
          follow_keeps keeps .inspect (by simp) (by simp) (by simp) gets notDirectory noLink
        dsimp only at found there
        rw [there, lenient] at found
        refine ⟨_, ?_, rfl⟩
        simp only [metadata, lookup, accepted, found]
        rfl

section

/-! Without a working directory a relative path leads nowhere, and nothing is done through it. -/

variable (gone : tree.directory? [] = none) (relative : path.isAbsolute = false)

include gone relative

theorem lookup_nowhere (purpose : Purpose) (insists : Bool) :
    ∃ error, tree.lookup purpose insists path = .error error := by
  have start : Standing.start tree path = none := by
    rw [Standing.start_congr (show path.isAbsolute = Path.isAbsolute [] from relative)]
    cases starts : Standing.start tree [] with
    | none => rfl
    | some standing =>
        have named : tree.directory? [] = some standing.location :=
          directory?_eq_some_iff.mpr ⟨mostLinks, standing, ⟨standing, starts, .arrived⟩, rfl⟩
        cases gone.symm.trans named
  unfold lookup
  split
  · exact ⟨_, rfl⟩
  · exact ⟨_, by simp only [follow, start]; rfl⟩

theorem metadata_nowhere : ∃ error, tree.metadata path = .error error := by
  obtain ⟨error, failed⟩ := lookup_nowhere gone relative .inspect path.endsInSeparator
  exact ⟨error, by simp only [metadata, failed]⟩

theorem isFile_nowhere : tree.isFile path = false := by
  obtain ⟨error, failed⟩ := metadata_nowhere gone relative
  simp only [isFile, failed]

theorem createFile_nowhere : ∃ error, tree.createFile path = .error error := by
  obtain ⟨error, failed⟩ := lookup_nowhere gone relative .create path.endsInSeparator
  exact ⟨error, by simp only [createFile, failed]⟩

theorem makeDirectory_nowhere : ∃ error, tree.makeDirectory path = .error error := by
  obtain ⟨error, failed⟩ := lookup_nowhere gone relative .takeLink false
  exact ⟨error, by simp only [makeDirectory, failed]⟩

end

theorem makeInside_nowhere (gone : tree.directory? [] = none) {paths : List Path}
    (relative : ∀ path ∈ paths, path.isAbsolute = false) : (tree.makeInside paths).2 = tree := by
  induction paths with
  | nil => rfl
  | cons path above ih =>
      obtain ⟨error, failed⟩ := makeDirectory_nowhere gone (relative path List.mem_cons_self)
      have outer := ih fun other member => relative other (List.mem_cons_of_mem path member)
      simp only [makeInside, failed]
      split
      · cases inside : tree.makeInside above with
        | mk result grown =>
            rw [inside] at outer
            dsimp only at outer
            subst outer
            cases result with
            | error => rfl
            | ok =>
                simp only [failed]
                split <;> rfl
      · split <;> rfl

end ArchiveTraversal.FileTree
