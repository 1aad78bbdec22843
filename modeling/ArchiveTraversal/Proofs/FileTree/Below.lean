import ArchiveTraversal.Proofs.FileTree.Edit
import Mathlib.Data.List.Induction

/-!
Changes through paths that go on from a directory which has no links below it. Such a path leads
to the location that its own names spell below the directory, so a change through it stays below.
Making directories along it adds those that are missing on the way and nothing else.
-/

namespace ArchiveTraversal.FileTree

variable {tree : FileTree}

def Below (base location : Location) : Prop := ∃ names, names ≠ [] ∧ location = base ++ names

def OnWay (base : Location) (names : List Name) (location : Location) : Prop :=
  ∃ above, above ≠ [] ∧ above <+: names ∧ location = base ++ above

theorem OnWay.below {base location : Location} {names : List Name}
    (onWay : OnWay base names location) : Below base location := by
  obtain ⟨above, some, _, same⟩ := onWay
  exact ⟨above, some, same⟩

theorem OnWay.longer {base location : Location} {names more : List Name}
    (onWay : OnWay base names location) (shorter : names <+: more) : OnWay base more location := by
  obtain ⟨above, some, upper, same⟩ := onWay
  exact ⟨above, some, upper.trans shorter, same⟩

theorem not_onWay_nil {base location : Location} : ¬ OnWay base [] location := by
  rintro ⟨above, some, upper, _⟩
  exact some (List.prefix_nil.mp upper)

theorem onWay_concat {base location : Location} {above : List Name} {last : Name} :
    OnWay base (above ++ [last]) location ↔
      OnWay base above location ∨ location = base ++ (above ++ [last]) := by
  constructor
  · rintro ⟨names, some, upper, same⟩
    rcases List.prefix_concat_iff.mp upper with whole | shorter
    · exact .inr (by rw [same, whole])
    · exact .inl ⟨names, some, shorter, same⟩
  · rintro (onWay | same)
    · exact onWay.longer (List.prefix_append _ _)
    · exact ⟨_, by simp, List.prefix_refl _, same⟩

theorem directory_of_onWay {base location : Location} {names : List Name}
    (directory : tree.at? (base ++ names) = some .directory)
    (onWay : OnWay base names location) : tree.at? location = some .directory := by
  obtain ⟨above, _, ⟨rest, rfl⟩, rfl⟩ := onWay
  by_cases none : rest = []
  · simpa [none] using directory
  · apply at?_directory_of_append none
    rw [List.append_assoc, directory]
    simp

/-- A directory that a path names, with no links below it. -/
structure Clear (tree : FileTree) (output : Path) (base : Location) : Prop where
  named : tree.directory? output = some base
  linkless : ∀ location, Below base location → ∀ target, tree.at? location ≠ some (.link target)

theorem walk_below {purpose : Purpose} {links : Nat} {standing : Standing} {names : List Name}
    {insists : Bool} {place : Place} (stands : standing.Stands tree)
    (linkless : ∀ location, Below standing.location location →
      ∀ target, tree.at? location ≠ some (.link target))
    (plain : ∀ name ∈ names, Path.Plain name)
    (gets : walk tree purpose links standing names insists = .ok place) :
    place.location = standing.location ++ names ∧ tree.find? place.location = place.node := by
  -- No link is met on the way, so the names are all there is to walk.
  induction names generalizing standing with
  | nil =>
      rw [walk_nil] at gets
      cases gets
      exact ⟨by simp, stands⟩
  | cons name rest ih =>
      obtain ⟨_, notHere, notUp, _⟩ := plain name List.mem_cons_self
      rw [walk_name _ _ _ notHere notUp] at gets
      have there := stands.lookup name
      -- What comes of the last name, whatever stands there.
      have ends : ∀ node insisted, standing.place name node insisted = place →
          standing.entries.lookup name = node → rest = [] →
          place.location = standing.location ++ name :: rest ∧
            tree.find? place.location = place.node := by
        rintro node insisted rfl found rfl
        rw [found] at there
        simpa [Standing.place, Standing.location] using there.symm
      split at gets
      · cases gets
      · split at gets
        · cases gets
        · cases found : standing.entries.lookup name with
          | none =>
              simp only [found] at gets
              split at gets
              · rename_i last
                exact ends _ _ (Except.ok.inj gets) found last
              · cases gets
          | some node =>
              cases node with
              | file content =>
                  simp only [found] at gets
                  split at gets
                  · rename_i last
                    exact ends _ _ (Except.ok.inj gets) found last
                  · cases gets
              | directory entries =>
                  simp only [found] at gets
                  have inner := ih (stands.enter found) (by
                    rintro location ⟨below, some, rfl⟩
                    apply linkless
                    rw [Standing.location_enter]
                    exact ⟨name :: below, by simp, by simp⟩)
                    (fun other member => plain other (List.mem_cons_of_mem _ member)) gets
                  rw [Standing.location_enter] at inner
                  simpa using inner
              | link target =>
                  rw [found, eq_comm, ← at?_eq_link_iff] at there
                  exact absurd there (linkless _ ⟨[name], by simp, rfl⟩ target)

theorem Clear.follow_ok {output path : Path} {base : Location} {names : List Name}
    {purpose : Purpose} {insists : Bool} {place : Place} (clear : tree.Clear output base)
    (spells : path.Spells output names) (nonempty : names ≠ [])
    (plain : ∀ name ∈ names, Path.Plain name)
    (gets : tree.follow purpose insists path = .ok place) :
    place.location = base ++ names ∧ tree.find? (base ++ names) = place.node := by
  obtain ⟨left, final, reaches, rfl⟩ := directory?_eq_some_iff.mp clear.named
  obtain ⟨above, last, ends⟩ := (List.eq_nil_or_concat names).resolve_left nonempty
  rw [List.concat_eq_append] at ends
  subst ends
  rw [reaches.follow spells.absolute spells.ends
    (by rw [spells.names, List.append_assoc])] at gets
  have found := walk_below reaches.stands clear.linkless plain gets
  exact ⟨found.1, found.1 ▸ found.2⟩

/-- A path is resolved to a directory by the file system, which refuses some paths unseen. -/
def Resolves (tree : FileTree) (path : Path) (base : Location) : Prop :=
  ∃ entries insisted, tree.lookup .inspect true path =
    .ok ⟨base, some (.directory entries), insisted⟩

theorem resolves_iff {path : Path} {base : Location} :
    tree.Resolves path base ↔ refusal path = none ∧ tree.directory? path = some base := by
  constructor
  · rintro ⟨entries, insisted, gets⟩
    obtain ⟨accepted, follows⟩ := lookup_ok gets
    exact ⟨accepted, by simp [directory?, follows]⟩
  · rintro ⟨accepted, named⟩
    unfold directory? at named
    split at named
    · rename_i location entries insisted follows
      cases named
      exact ⟨entries, insisted, by simp [lookup, accepted, follows]⟩
    · cases named

theorem Resolves.keeps {before after : FileTree} (keeps : Keeps before after) {path : Path}
    {base : Location} (resolves : before.Resolves path base) : after.Resolves path base := by
  obtain ⟨accepted, named⟩ := resolves_iff.mp resolves
  exact resolves_iff.mpr ⟨accepted, directory?_keeps keeps named⟩

theorem makeDirectories_resolves {path : Path} {after : FileTree} (nonempty : path ≠ [])
    (made : tree.makeDirectories path = (.ok (), after)) : ∃ base, after.Resolves path base := by
  obtain ⟨base, named⟩ := makeDirectories_named nonempty made
  refine ⟨base, resolves_iff.mpr ⟨?_, named⟩⟩
  cases refused : refusal path with
  | none => rfl
  | some error =>
      rw [makeDirectories_refused nonempty refused] at made
      cases made

def BelowResolved (tree : FileTree) (path : Path) (location : Location) : Prop :=
  ∃ base, tree.Resolves path base ∧ Below base location

/-- What a run may do below a directory: everything else is as it was, what was a directory is
one, and there is no link that was not there. -/
structure Alters (base : Location) (before after : FileTree) : Prop where
  workingDirectory : after.workingDirectory = before.workingDirectory
  outside : ∀ location, ¬ Below base location → after.at? location = before.at? location
  directory : ∀ location, before.at? location = some .directory →
    after.at? location = some .directory
  noNewLinks : NoNewLinks before after

theorem Alters.refl (base : Location) (tree : FileTree) : Alters base tree tree :=
  ⟨rfl, fun _ _ => rfl, fun _ directory => directory, .refl tree⟩

theorem Alters.trans {base : Location} {before between after : FileTree}
    (first : Alters base before between) (second : Alters base between after) :
    Alters base before after where
  workingDirectory := second.workingDirectory.trans first.workingDirectory
  outside location apart := (second.outside location apart).trans (first.outside location apart)
  directory location directory := second.directory location (first.directory location directory)
  noNewLinks := first.noNewLinks.trans second.noNewLinks

theorem Clear.keeps {output : Path} {base : Location} {after : FileTree}
    (clear : tree.Clear output base) (alters : Alters base tree after) : Keeps tree after := by
  refine ⟨alters.workingDirectory, alters.directory, fun location target link => ?_⟩
  rw [alters.outside]
  · exact link
  · exact fun below => clear.linkless location below target link

/-- The directory is still named by the same path: no link on the way to it lies below it. -/
theorem Clear.alters {output : Path} {base : Location} {after : FileTree}
    (clear : tree.Clear output base) (alters : Alters base tree after) :
    after.Clear output base := by
  refine ⟨directory?_keeps (clear.keeps alters) clear.named, fun location below target link => ?_⟩
  exact clear.linkless location below target (alters.noNewLinks location target link)

theorem Grows.alters {base : Location} {before after : FileTree} (grows : Grows before after)
    (within : ∀ location, after.at? location = before.at? location ∨ Below base location) :
    Alters base before after where
  workingDirectory := grows.workingDirectory
  outside location apart := (within location).resolve_right apart
  directory := grows.keeps.directory
  noNewLinks := grows.noNewLinks

section

variable {output path : Path} {base : Location} {names : List Name}

theorem Clear.makeDirectory_ok {grown : FileTree} (clear : tree.Clear output base)
    (spells : path.Spells output names) (nonempty : names ≠ [])
    (plain : ∀ name ∈ names, Path.Plain name) (made : tree.makeDirectory path = .ok grown) :
    tree.Vacant (base ++ names) ∧ tree.at? (base ++ names) = none ∧
      grown = tree.put (base ++ names) (.directory []) := by
  obtain ⟨location, insisted, gets, vacant, absent, made⟩ := FileTree.makeDirectory_ok made
  have there : location = base ++ names := (clear.follow_ok spells nonempty plain gets).1
  subst there
  exact ⟨vacant, absent, made⟩

theorem Clear.removeFile_ok {smaller : FileTree} (clear : tree.Clear output base)
    (spells : path.Spells output names) (nonempty : names ≠ [])
    (plain : ∀ name ∈ names, Path.Plain name) (removed : tree.removeFile path = .ok smaller) :
    tree.Vacant (base ++ names) ∧ (∃ content, tree.at? (base ++ names) = some (.file content)) ∧
      smaller = tree.remove (base ++ names) := by
  obtain ⟨location, node, insisted, gets, vacant, found, removed⟩ := FileTree.removeFile_ok removed
  have there : location = base ++ names := (clear.follow_ok spells nonempty plain gets).1
  subst there
  refine ⟨vacant, ?_, removed⟩
  cases node with
  | file content => exact ⟨content, at?_eq_file_iff.mpr found⟩
  | link target =>
      have below : Below base (base ++ names) := ⟨names, nonempty, rfl⟩
      exact absurd (at?_eq_link_iff.mpr found) (clear.linkless _ below target)
  | directory entries => exact absurd (at?_eq_directory_iff.mpr ⟨_, found⟩) vacant.leaf

theorem Clear.createFile_ok {location : Location} {opened : FileTree}
    (clear : tree.Clear output base) (spells : path.Spells output names) (nonempty : names ≠ [])
    (plain : ∀ name ∈ names, Path.Plain name)
    (created : tree.createFile path = .ok (location, opened)) :
    location = base ++ names ∧ tree.Vacant (base ++ names) ∧
      opened = tree.put (base ++ names) (.file []) := by
  obtain ⟨node, insisted, gets, vacant, opened⟩ := FileTree.createFile_ok created
  have there : location = base ++ names := (clear.follow_ok spells nonempty plain gets).1
  subst there
  exact ⟨rfl, vacant, opened⟩

theorem Clear.isDirectory_ok (clear : tree.Clear output base) (spells : path.Spells output names)
    (nonempty : names ≠ []) (plain : ∀ name ∈ names, Path.Plain name)
    (is : tree.isDirectory path = true) : tree.at? (base ++ names) = some .directory := by
  obtain ⟨entries, location, insisted, gets⟩ := FileTree.isDirectory_ok is
  exact at?_eq_directory_iff.mpr ⟨entries, (clear.follow_ok spells nonempty plain gets).2⟩

end

/-- A path to a directory is never without a node, even where its last link is to be taken. -/
theorem Leads.walk_takeLink {links left : Nat} {standing final : Standing} {names : List Name}
    (leads : Leads tree links standing names left final) (insists : Bool) :
    ∃ place, walk tree .takeLink links standing names insists = .ok place ∧
      place.node ≠ none := by
  induction leads generalizing insists with
  | arrived => exact ⟨_, walk_nil .., by simp⟩
  | stay _ ih => rw [walk_here]; exact ih insists
  | leave _ ih => rw [walk_up]; exact ih insists
  | enter notHere notUp short found _ ih =>
      rw [walk_name _ _ _ notHere notUp, found]
      simpa [Nat.not_lt.mpr short] using ih insists
  | follow notHere notUp short found _ ih =>
      rw [walk_name _ _ _ notHere notUp, found]
      simp only [reduceCtorEq, false_and, ↓reduceIte, Nat.not_lt.mpr short]
      split
      · exact ⟨_, rfl, by simp [Standing.place]⟩
      · exact ih _

theorem makeDirectory_of_reaches {path : Path} {left : Nat} {final : Standing}
    (reaches : tree.Reaches path left final) (nonempty : path ≠ []) :
    ∃ error, tree.makeDirectory path = .error error ∧
      error ≠ .system SystemError.notFound := by
  unfold makeDirectory lookup
  cases refused : refusal path with
  | some error =>
      refine ⟨error, rfl, ?_⟩
      simp only [refusal, nonempty, ↓reduceIte] at refused
      split at refused
      · cases refused
        simp
      · split at refused
        · cases refused
          simp [SystemError.nameTooLong, SystemError.notFound]
        · cases refused
  | none =>
      obtain ⟨standing, starts, leads⟩ := reaches.leads_segments
      obtain ⟨place, gets, stands⟩ := leads.walk_takeLink false
      refine ⟨.system SystemError.alreadyExists, ?_, by
        simp [SystemError.alreadyExists, SystemError.notFound]⟩
      simp only [follow, starts, gets]
      obtain ⟨location, node, insisted⟩ := place
      cases node with
      | none => exact absurd rfl stands
      | some node => rfl

theorem makeInside_of_reaches {path : Path} {left : Nat} {final : Standing}
    (reaches : tree.Reaches path left final) : (tree.makeInside path.ancestors).2 = tree := by
  by_cases empty : path = []
  · rw [empty, Path.ancestors_nil]
    rfl
  · obtain ⟨above, paths⟩ := Path.ancestors_of_nonempty empty
    obtain ⟨error, refused, other⟩ := makeDirectory_of_reaches reaches empty
    rw [paths]
    simp only [makeInside, refused, other, ↓reduceIte]
    split <;> rfl

structure Paves (base : Location) (names : List Name) (before : FileTree)
    (made : Except IoError Unit × FileTree) : Prop where
  grows : Grows before made.2
  within : ∀ location, made.2.at? location = before.at? location ∨ OnWay base names location
  complete : made.1 = .ok () → ∀ location, OnWay base names location →
    made.2.at? location = some .directory

theorem Paves.alters {base : Location} {names : List Name}
    {made : Except IoError Unit × FileTree} (paves : Paves base names tree made) :
    Alters base tree made.2 :=
  paves.grows.alters fun location => (paves.within location).imp_right OnWay.below

theorem Clear.paves_of_made {output path : Path} {base : Location} {above : List Name}
    {last : Name} {grown : FileTree} (clear : tree.Clear output base)
    (spells : path.Spells output (above ++ [last]))
    (plain : ∀ name ∈ above ++ [last], Path.Plain name)
    (made : tree.makeDirectory path = .ok grown) :
    Paves base (above ++ [last]) tree (.ok (), grown) := by
  obtain ⟨vacant, _, same⟩ := clear.makeDirectory_ok spells (by simp) plain made
  subst same
  have view : ∀ other, (tree.put (base ++ (above ++ [last])) (.directory [])).at? other =
      if other = base ++ (above ++ [last]) then some .directory else tree.at? other :=
    vacant.at?_put fun _ _ => rfl
  refine ⟨makeDirectory_grows made, fun location => ?_, fun _ location onWay => ?_⟩
  · by_cases there : location = base ++ (above ++ [last])
    · exact .inr (onWay_concat.mpr (.inr there))
    · exact .inl (by rw [view]; simp [there])
  · rw [view]
    rcases onWay_concat.mp onWay with upper | there
    · obtain ⟨entries, room⟩ := vacant.room
      rw [← List.append_assoc, List.dropLast_concat] at room
      have directory := directory_of_onWay (at?_eq_directory_iff.mpr ⟨entries, room⟩) upper
      split
      · rfl
      · exact directory
    · simp [there]

theorem Clear.paves_of_directory {output path : Path} {base : Location} {names : List Name}
    (clear : tree.Clear output base) (spells : path.Spells output names) (nonempty : names ≠ [])
    (plain : ∀ name ∈ names, Path.Plain name) (is : tree.isDirectory path = true) :
    Paves base names tree (.ok (), tree) :=
  ⟨.refl tree, fun _ => .inl rfl, fun _ _ onWay =>
    directory_of_onWay (clear.isDirectory_ok spells nonempty plain is) onWay⟩

theorem Paves.failed {base : Location} {names : List Name} {before after : FileTree}
    (grows : Grows before after)
    (within : ∀ location, after.at? location = before.at? location ∨ OnWay base names location)
    (error : IoError) : Paves base names before (.error error, after) :=
  ⟨grows, within, fun ok => by cases ok⟩

theorem Paves.trans {base : Location} {names : List Name} {between : FileTree}
    {made : Except IoError Unit × FileTree} (grows : Grows tree between)
    (within : ∀ location, between.at? location = tree.at? location ∨ OnWay base names location)
    (further : Paves base names between made) : Paves base names tree made where
  grows := grows.trans further.grows
  within location := by
    rcases further.within location with same | onWay
    · rw [same]
      exact within location
    · exact .inr onWay
  complete := further.complete

theorem Clear.makeInside {output path : Path} {base : Location} {names : List Name}
    (clear : tree.Clear output base) (spells : path.Spells output names)
    (plain : ∀ name ∈ names, Path.Plain name) :
    Paves base names tree (tree.makeInside path.ancestors) := by
  -- On the names, from the last one up: a parent spells one name less.
  induction names using List.reverseRecOn generalizing path with
  | nil =>
      obtain ⟨left, final, reaches, _⟩ := directory?_eq_some_iff.mp clear.named
      have same := makeInside_of_reaches
        (reaches.congr spells.absolute (by simpa using spells.names))
      refine ⟨by rw [same]; exact .refl tree, fun _ => .inl (by rw [same]), fun _ _ onWay => ?_⟩
      exact absurd onWay not_onWay_nil
  | append_singleton above last ih =>
      obtain ⟨parent, found, spellsParent⟩ := spells.parent?
      rw [Path.ancestors_of_parent found]
      simp only [FileTree.makeInside]
      cases made : tree.makeDirectory path with
      | ok grown => exact clear.paves_of_made spells plain made
      | error error =>
          simp only
          split
          · have outer := ih spellsParent fun name member => plain name (by simp [member])
            have clearOuter := clear.alters outer.alters
            have within := fun location => (outer.within location).imp_right
              fun onWay => onWay.longer (List.prefix_append above [last])
            cases inside : tree.makeInside parent.ancestors with
            | mk result grown =>
                rw [inside] at outer clearOuter within
                cases result with
                | error failure => exact .failed outer.grows within failure
                | ok _ =>
                    simp only
                    -- The parents are there by now, and the path itself is tried once more.
                    cases again : grown.makeDirectory path with
                    | ok further =>
                        exact .trans outer.grows within (clearOuter.paves_of_made spells plain again)
                    | error failure =>
                        simp only
                        split
                        · rename_i is
                          exact .trans outer.grows within
                            (clearOuter.paves_of_directory spells (by simp) plain is)
                        · exact .failed outer.grows within failure
          · split
            · rename_i is
              exact clear.paves_of_directory spells (by simp) plain is
            · exact .failed (.refl tree) (fun _ => .inl rfl) error

end ArchiveTraversal.FileTree
