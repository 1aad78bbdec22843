import ArchiveTraversal.Proofs.FileTree.Descent

/-!
What each change of a tree through a path does to the view of it. A change is made at a single
location, where no directory stands, and is seen there and nowhere else. Making directories only
adds directories where nothing stood. No change puts a link anywhere.
-/

namespace ArchiveTraversal.FileTree

variable {tree : FileTree}

theorem at?_eq_none_iff {location : Location} :
    tree.at? location = none ↔ tree.find? location = none := by
  simp [at?]

theorem at?_eq_directory_iff {location : Location} :
    tree.at? location = some .directory ↔
      ∃ entries, tree.find? location = some (.directory entries) := by
  unfold at?
  cases tree.find? location with
  | none => simp
  | some node => cases node <;> simp [Node.shape]

theorem at?_eq_link_iff {location : Location} {target : Path} :
    tree.at? location = some (.link target) ↔ tree.find? location = some (.link target) := by
  unfold at?
  cases tree.find? location with
  | none => simp
  | some node => cases node <;> simp [Node.shape]

theorem at?_eq_file_iff {location : Location} {content : Bytes} :
    tree.at? location = some (.file content) ↔ tree.find? location = some (.file content) := by
  unfold at?
  cases tree.find? location with
  | none => simp
  | some node => cases node <;> simp [Node.shape]

theorem Standing.Stands.at? {standing : Standing} (stands : standing.Stands tree) :
    tree.at? standing.location = some .directory :=
  at?_eq_directory_iff.mpr ⟨_, stands⟩

theorem at?_append_of_leaf {location below : Location}
    (leaf : tree.at? location ≠ some .directory) (more : below ≠ []) :
    tree.at? (location ++ below) = none := by
  rw [at?_eq_none_iff, find?_append]
  cases found : tree.find? location with
  | none => rfl
  | some node =>
      cases below with
      | nil => exact absurd rfl more
      | cons name rest =>
          cases node with
          | file content => rfl
          | link target => rfl
          | directory entries => exact absurd (at?_eq_directory_iff.mpr ⟨_, found⟩) leaf

theorem at?_directory_of_append {location below : Location} (more : below ≠ [])
    (stands : tree.at? (location ++ below) ≠ none) : tree.at? location = some .directory := by
  apply Decidable.byContradiction
  intro leaf
  exact stands (at?_append_of_leaf leaf more)

/-- A location that a file or a new directory can be put at: there is room, and no directory. -/
structure Vacant (tree : FileTree) (location : Location) : Prop where
  proper : location ≠ []
  room : tree.HasRoom location
  leaf : tree.at? location ≠ some .directory

theorem Vacant.at?_put {location : Location} (vacant : tree.Vacant location) {node : Node}
    (bare : ∀ name below, node.find? (name :: below) = none) (other : Location) :
    (tree.put location node).at? other =
      if other = location then some node.shape else tree.at? other := by
  rw [FileTree.at?_put tree location other node vacant.proper vacant.room]
  by_cases within : location <+: other
  · obtain ⟨below, rfl⟩ := within
    cases below with
    | nil => simp [Node.find?]
    | cons name rest =>
        have nothing := at?_append_of_leaf vacant.leaf (List.cons_ne_nil name rest)
        simp [bare, nothing]
  · have apart : other ≠ location := by
      rintro rfl
      exact within (List.prefix_refl _)
    simp [within, apart]

theorem Vacant.at?_remove {location : Location} (vacant : tree.Vacant location)
    (other : Location) :
    (tree.remove location).at? other = if other = location then none else tree.at? other := by
  rw [FileTree.at?_remove tree location other vacant.proper]
  by_cases within : location <+: other
  · obtain ⟨below, rfl⟩ := within
    cases below with
    | nil => simp
    | cons name rest =>
        have nothing := at?_append_of_leaf vacant.leaf (List.cons_ne_nil name rest)
        simp [nothing]
  · have apart : other ≠ location := by
      rintro rfl
      exact within (List.prefix_refl _)
    simp [within, apart]

theorem Vacant.at?_put_file {location : Location} (vacant : tree.Vacant location)
    (content : Bytes) (other : Location) :
    (tree.put location (.file content)).at? other =
      if other = location then some (.file content) else tree.at? other :=
  vacant.at?_put (fun _ _ => rfl) other

theorem Vacant.put_file {location : Location} (vacant : tree.Vacant location) (content : Bytes) :
    (tree.put location (.file content)).Vacant location := by
  have view := vacant.at?_put_file content
  refine ⟨vacant.proper, ?_, by simp [view]⟩
  have above : location.dropLast ≠ location := by
    intro same
    have shorter := congrArg List.length same
    have proper := List.length_pos_iff.mpr vacant.proper
    rw [List.length_dropLast] at shorter
    omega
  have directory := view location.dropLast
  rw [if_neg above, at?_eq_directory_iff.mpr vacant.room] at directory
  exact at?_eq_directory_iff.mp directory

theorem Vacant.at?_put_again {location : Location} (vacant : tree.Vacant location)
    (first content : Bytes) (other : Location) :
    ((tree.put location (.file first)).put location (.file content)).at? other =
      if other = location then some (.file content) else tree.at? other := by
  rw [(vacant.put_file first).at?_put_file, vacant.at?_put_file]
  split <;> rfl

theorem workingDirectory_withRoot (tree : FileTree) (node : Node) :
    (tree.withRoot node).workingDirectory = tree.workingDirectory := by
  unfold withRoot
  split <;> rfl

theorem workingDirectory_put (tree : FileTree) (location : Location) (node : Node) :
    (tree.put location node).workingDirectory = tree.workingDirectory :=
  workingDirectory_withRoot ..

theorem workingDirectory_remove (tree : FileTree) (location : Location) :
    (tree.remove location).workingDirectory = tree.workingDirectory :=
  workingDirectory_withRoot ..

theorem lookup_ok {purpose : Purpose} {insists : Bool} {path : Path} {place : Place}
    (gets : tree.lookup purpose insists path = .ok place) :
    refusal path = none ∧ tree.follow purpose insists path = .ok place := by
  unfold lookup at gets
  split at gets
  · cases gets
  · rename_i accepted
    exact ⟨accepted, gets⟩

/-- A lookup that ends anywhere but in a directory ends at a vacant location. -/
theorem vacant_of_follow {purpose : Purpose} {insists : Bool} {path : Path} {place : Place}
    (gets : tree.follow purpose insists path = .ok place)
    (leaf : ∀ entries, place.node ≠ some (.directory entries)) :
    tree.Vacant place.location ∧ tree.find? place.location = place.node ∧
      ∀ target, place.node = some (.link target) → purpose = .takeLink := by
  unfold follow at gets
  cases starts : Standing.start tree path with
  | none => simp [starts] at gets
  | some standing =>
      simp only [starts] at gets
      cases walk_arrives (Standing.stands_start starts) gets with
      | directory _ _ node => exact absurd node (leaf _)
      | @entry between name stands there node _ taken =>
          have found : tree.find? place.location = place.node := by
            rw [there, node, stands.lookup]
          refine ⟨⟨by simp [there], ⟨between.entries, ?_⟩, ?_⟩, found, taken⟩
          · rw [there, List.dropLast_concat]
            exact stands
          · intro directory
            obtain ⟨entries, inner⟩ := at?_eq_directory_iff.mp directory
            exact leaf entries (found.symm.trans inner)

theorem makeDirectory_ok {path : Path} {grown : FileTree}
    (made : tree.makeDirectory path = .ok grown) :
    ∃ location insisted, tree.follow .takeLink false path = .ok ⟨location, none, insisted⟩ ∧
      tree.Vacant location ∧ tree.at? location = none ∧
      grown = tree.put location (.directory []) := by
  unfold makeDirectory at made
  split at made
  · cases made
  · cases made
  · rename_i location insisted looked
    cases made
    have gets := (lookup_ok looked).2
    have vacant := vacant_of_follow gets (by simp)
    exact ⟨location, insisted, gets, vacant.1, at?_eq_none_iff.mpr vacant.2.1, rfl⟩

theorem removeFile_ok {path : Path} {smaller : FileTree}
    (removed : tree.removeFile path = .ok smaller) :
    ∃ location node insisted,
      tree.follow .takeLink path.endsInSeparator path = .ok ⟨location, some node, insisted⟩ ∧
      tree.Vacant location ∧ tree.find? location = some node ∧
      smaller = tree.remove location := by
  unfold removeFile at removed
  split at removed
  · cases removed
  · cases removed
  · cases removed
  · rename_i location node insisted notDirectory looked
    split at removed
    · cases removed
    · cases removed
      have gets := (lookup_ok looked).2
      have vacant := vacant_of_follow gets fun entries same =>
        notDirectory entries (Option.some.inj same)
      exact ⟨location, node, insisted, gets, vacant.1, vacant.2.1, rfl⟩

theorem createFile_ok {path : Path} {location : Location} {opened : FileTree}
    (created : tree.createFile path = .ok (location, opened)) :
    ∃ node insisted,
      tree.follow .create path.endsInSeparator path = .ok ⟨location, node, insisted⟩ ∧
      tree.Vacant location ∧ opened = tree.put location (.file []) := by
  unfold createFile at created
  split at created
  · cases created
  · cases created
  · rename_i there node insisted notDirectory looked
    cases created
    have gets := (lookup_ok looked).2
    have vacant := vacant_of_follow gets notDirectory
    exact ⟨node, insisted, gets, vacant.1, rfl⟩

/-- There are directories where nothing stood, and all else is as before. -/
structure Grows (before after : FileTree) : Prop where
  workingDirectory : after.workingDirectory = before.workingDirectory
  view : ∀ location, after.at? location = before.at? location ∨
    before.at? location = none ∧ after.at? location = some .directory

theorem Grows.refl (tree : FileTree) : Grows tree tree := ⟨rfl, fun _ => .inl rfl⟩

theorem Grows.trans {before between after : FileTree} (first : Grows before between)
    (second : Grows between after) : Grows before after := by
  refine ⟨second.workingDirectory.trans first.workingDirectory, fun location => ?_⟩
  rcases second.view location with same | ⟨absent, made⟩
  · rw [same]
    exact first.view location
  · rcases first.view location with same | ⟨absentBefore, madeBefore⟩
    · exact .inr ⟨same ▸ absent, made⟩
    · rw [absent] at madeBefore
      cases madeBefore

theorem makeDirectory_grows {path : Path} {grown : FileTree}
    (made : tree.makeDirectory path = .ok grown) : Grows tree grown := by
  obtain ⟨location, _, _, vacant, absent, rfl⟩ := makeDirectory_ok made
  refine ⟨workingDirectory_put .., fun other => ?_⟩
  rw [vacant.at?_put fun _ _ => rfl]
  by_cases same : other = location
  · subst same
    exact .inr ⟨absent, by simp [Node.shape]⟩
  · simp [same]

theorem makeInside_grows (tree : FileTree) (paths : List Path) :
    Grows tree (tree.makeInside paths).2 := by
  induction paths generalizing tree with
  | nil => exact .refl tree
  | cons path above ih =>
      simp only [makeInside]
      cases made : tree.makeDirectory path with
      | ok grown => exact makeDirectory_grows made
      | error error =>
          simp only
          split
          · have outer := ih tree
            cases inside : tree.makeInside above with
            | mk result grown =>
                rw [inside] at outer
                cases result with
                | error failure => exact outer
                | ok _ =>
                    simp only
                    cases again : grown.makeDirectory path with
                    | ok further => exact outer.trans (makeDirectory_grows again)
                    | error failure =>
                        simp only
                        split <;> exact outer
          · split <;> exact .refl tree

theorem makeDirectories_grows (tree : FileTree) (path : Path) :
    Grows tree (tree.makeDirectories path).2 :=
  makeInside_grows tree path.ancestors

def NoNewLinks (before after : FileTree) : Prop :=
  ∀ location target, after.at? location = some (.link target) →
    before.at? location = some (.link target)

theorem NoNewLinks.refl (tree : FileTree) : NoNewLinks tree tree := fun _ _ link => link

theorem NoNewLinks.trans {before between after : FileTree} (first : NoNewLinks before between)
    (second : NoNewLinks between after) : NoNewLinks before after :=
  fun location target link => first location target (second location target link)

theorem Grows.noNewLinks {before after : FileTree} (grows : Grows before after) :
    NoNewLinks before after := by
  intro location target link
  rcases grows.view location with same | ⟨_, made⟩
  · exact same ▸ link
  · rw [link] at made
    cases made

theorem Vacant.put_noNewLinks {location : Location} (vacant : tree.Vacant location)
    (content : Bytes) : NoNewLinks tree (tree.put location (.file content)) := by
  intro other target link
  rw [vacant.at?_put fun _ _ => rfl] at link
  split at link
  · cases link
  · exact link

theorem removeFile_noNewLinks {path : Path} {smaller : FileTree}
    (removed : tree.removeFile path = .ok smaller) : NoNewLinks tree smaller := by
  obtain ⟨location, _, _, _, vacant, _, rfl⟩ := removeFile_ok removed
  intro other target link
  rw [vacant.at?_remove] at link
  split at link
  · cases link
  · exact link

theorem Standing.location_leave {standing : Standing} (stands : standing.Stands tree) :
    (standing.leave tree).location = standing.location.dropLast := by
  have above : ∃ entries, tree.find? standing.trail.tail.reverse = some (.directory entries) := by
    cases trail : standing.trail with
    | nil => exact ⟨tree.entries, rfl⟩
    | cons name rest =>
        apply at?_eq_directory_iff.mp
        apply at?_directory_of_append (List.cons_ne_nil name [])
        have there := stands.at?
        rw [location, trail] at there
        simp only [List.tail_cons]
        rw [← List.reverse_cons, there]
        simp
  obtain ⟨entries, found⟩ := above
  simp only [leave, found, location]
  cases standing.trail <;> simp

/-- What stood as a directory still does, and so do the links that lead to one. A way through the
earlier tree is then one through the later tree. -/
structure Spares (before after : FileTree) : Prop where
  workingDirectory : after.workingDirectory = before.workingDirectory
  directory : ∀ location, before.at? location = some .directory →
    after.at? location = some .directory
  link : ∀ {standing final : Standing} {name : Name} {target : Path} {links left : Nat},
    standing.Stands before → before.at? (standing.location ++ [name]) = some (.link target) →
    Leads before links (if target.isAbsolute then .atRoot before else standing) target.segments
      left final →
    after.at? (standing.location ++ [name]) = some (.link target)

theorem Leads.spares {before after : FileTree} (spares : Spares before after) {links left : Nat}
    {standing final later : Standing} {names : List Name}
    (leads : Leads before links standing names left final) (stands : standing.Stands before)
    (standsLater : later.Stands after) (same : later.location = standing.location) :
    ∃ finalLater, Leads after links later names left finalLater ∧
      finalLater.location = final.location := by
  induction leads generalizing later with
  | arrived => exact ⟨later, .arrived, same⟩
  | stay _ ih =>
      obtain ⟨final, onwards, there⟩ := ih stands standsLater same
      exact ⟨final, .stay onwards, there⟩
  | leave _ ih =>
      obtain ⟨final, onwards, there⟩ := ih (Standing.stands_leave ..)
        (Standing.stands_leave after later)
        (by rw [Standing.location_leave standsLater, Standing.location_leave stands, same])
      exact ⟨final, .leave onwards, there⟩
  | @enter _ _ _ _ name _ _ notHere notUp short found _ ih =>
      have inner := stands.enter found
      have there := spares.directory _ inner.at?
      obtain ⟨entries, foundLater⟩ := at?_eq_directory_iff.mp there
      rw [Standing.location_enter, ← same, ← standsLater.lookup] at foundLater
      obtain ⟨final, onwards, there⟩ := ih inner (standsLater.enter foundLater)
        (by rw [Standing.location_enter, Standing.location_enter, same])
      exact ⟨final, .enter notHere notUp short foundLater onwards, there⟩
  | @follow _ _ standing _ name _ target notHere notUp short found onwards ih =>
      have link : before.at? (standing.location ++ [name]) = some (.link target) := by
        rw [at?_eq_link_iff, ← stands.lookup, found]
      obtain ⟨_, _, through, _⟩ := onwards.parts
      have foundLater : later.entries.lookup name = some (.link target) := by
        rw [standsLater.lookup, same, ← at?_eq_link_iff]
        exact spares.link stands link through
      -- An absolute target starts over at the root, any other one where the link stands.
      by_cases absolute : target.isAbsolute = true
      · simp only [absolute, ↓reduceIte] at ih ⊢
        obtain ⟨final, onwards, there⟩ := ih (Standing.stands_atRoot before)
          (Standing.stands_atRoot after) rfl
        exact ⟨final, .follow notHere notUp short foundLater (by simpa [absolute] using onwards),
          there⟩
      · simp only [absolute, Bool.false_eq_true, ↓reduceIte] at ih ⊢
        obtain ⟨final, onwards, there⟩ := ih stands standsLater same
        exact ⟨final, .follow notHere notUp short foundLater (by simpa [absolute] using onwards),
          there⟩

theorem Standing.start_spares {before after : FileTree} (spares : Spares before after) {path : Path}
    {standing : Standing} (starts : Standing.start before path = some standing) :
    ∃ later, Standing.start after path = some later ∧ later.location = standing.location := by
  unfold Standing.start at starts ⊢
  split
  · rename_i absolute
    simp only [absolute, ↓reduceIte] at starts
    cases starts
    exact ⟨_, rfl, rfl⟩
  · rename_i relative
    simp only [relative, Bool.false_eq_true, ↓reduceIte] at starts
    split at starts
    · rename_i entries found
      cases starts
      have there := spares.directory _ (at?_eq_directory_iff.mpr ⟨entries, found⟩)
      obtain ⟨entriesLater, foundLater⟩ := at?_eq_directory_iff.mp there
      rw [← spares.workingDirectory] at foundLater
      exact ⟨_, by rw [foundLater], by simp [Standing.location, spares.workingDirectory]⟩
    · cases starts

theorem Reaches.spares {before after : FileTree} (spares : Spares before after) {path : Path}
    {left : Nat} {final : Standing} (reaches : before.Reaches path left final) :
    ∃ finalLater, after.Reaches path left finalLater ∧ finalLater.location = final.location := by
  obtain ⟨standing, starts, leads⟩ := reaches
  obtain ⟨later, startsLater, same⟩ := Standing.start_spares spares starts
  obtain ⟨final, onwards, there⟩ := leads.spares spares (Standing.stands_start starts)
    (Standing.stands_start startsLater) same
  exact ⟨final, ⟨later, startsLater, onwards⟩, there⟩

theorem directory?_spares {before after : FileTree} (spares : Spares before after) {path : Path}
    {base : Location} (named : before.directory? path = some base) :
    after.directory? path = some base := by
  obtain ⟨left, final, reaches, rfl⟩ := directory?_eq_some_iff.mp named
  obtain ⟨later, reachesLater, there⟩ := reaches.spares spares
  exact directory?_eq_some_iff.mpr ⟨left, later, reachesLater, there⟩

/-- What stood as a directory or a link still does. A way through the earlier tree is then one
through the later tree. -/
structure Keeps (before after : FileTree) : Prop where
  workingDirectory : after.workingDirectory = before.workingDirectory
  directory : ∀ location, before.at? location = some .directory →
    after.at? location = some .directory
  link : ∀ location target, before.at? location = some (.link target) →
    after.at? location = some (.link target)

theorem Grows.stays {before after : FileTree} (grows : Grows before after) {location : Location}
    {shape : Shape} (stands : before.at? location = some shape) :
    after.at? location = some shape := by
  rcases grows.view location with same | ⟨absent, _⟩
  · exact same.trans stands
  · cases stands.symm.trans absent

theorem Grows.keeps {before after : FileTree} (grows : Grows before after) :
    Keeps before after :=
  ⟨grows.workingDirectory, fun _ => grows.stays, fun _ _ => grows.stays⟩

theorem Keeps.spares {before after : FileTree} (keeps : Keeps before after) :
    Spares before after :=
  ⟨keeps.workingDirectory, keeps.directory, fun _ stands _ => keeps.link _ _ stands⟩

theorem Reaches.keeps {before after : FileTree} (keeps : Keeps before after) {path : Path}
    {left : Nat} {final : Standing} (reaches : before.Reaches path left final) :
    ∃ finalLater, after.Reaches path left finalLater ∧ finalLater.location = final.location :=
  reaches.spares keeps.spares

theorem directory?_keeps {before after : FileTree} (keeps : Keeps before after) {path : Path}
    {base : Location} (named : before.directory? path = some base) :
    after.directory? path = some base :=
  directory?_spares keeps.spares named

theorem isDirectory_ok {path : Path} (is : tree.isDirectory path = true) :
    ∃ entries location insisted, tree.follow .inspect path.endsInSeparator path =
      .ok ⟨location, some (.directory entries), insisted⟩ := by
  unfold isDirectory at is
  split at is
  · rename_i entries looked
    unfold metadata at looked
    split at looked
    · cases looked
    · cases looked
    · rename_i location inner insisted found
      cases looked
      exact ⟨_, location, insisted, (lookup_ok found).2⟩
    · rename_i location node insisted notDirectory found
      split at looked
      · cases looked
      · cases looked
        exact absurd rfl (notDirectory entries)
  · cases is

theorem isDirectory_named {path : Path} (is : tree.isDirectory path = true) :
    ∃ base, tree.directory? path = some base := by
  obtain ⟨entries, location, insisted, gets⟩ := isDirectory_ok is
  obtain ⟨left, final, reaches, there⟩ := reaches_of_follow gets
  exact ⟨location, directory?_eq_some_iff.mpr ⟨left, final, reaches, there⟩⟩

/-- A walk that takes links and finds nothing has found a directory without its last name. -/
theorem walk_nothing {links : Nat} {standing : Standing} {way : List Name} {last : Name}
    {location : Location} {insisted : Bool}
    (gets : walk tree .takeLink links standing (way ++ [last]) false =
      .ok ⟨location, none, insisted⟩) :
    ∃ left between, Leads tree links standing way left between ∧ last ≠ Path.here ∧
      last ≠ Path.up ∧ last.length ≤ longestName ∧ location = between.location ++ [last] := by
  obtain ⟨left, between, leads⟩ := leads_of_walk (by simp) gets
  rw [leads.walk_append (by simp)] at gets
  have notHere : last ≠ Path.here := by
    rintro rfl
    rw [walk_here, walk_nil] at gets
    cases gets
  have notUp : last ≠ Path.up := by
    rintro rfl
    rw [walk_up, walk_nil] at gets
    cases gets
  rw [walk_name _ _ _ notHere notUp] at gets
  simp only [reduceCtorEq, false_and, ↓reduceIte, Bool.not_false, and_self] at gets
  split at gets
  · cases gets
  · rename_i short
    refine ⟨left, between, leads, notHere, notUp, Nat.not_lt.mp short, ?_⟩
    cases found : between.entries.lookup last with
    | none =>
        simp only [found] at gets
        cases gets
        simp [Standing.location]
    | some node => cases node <;> simp [found, Standing.place, walk_nil] at gets

theorem makeDirectory_at {path : Path} {grown : FileTree}
    (made : tree.makeDirectory path = .ok grown) :
    ∃ standing above last left between, Standing.start tree path = some standing ∧
      path.names = above ++ [last] ∧ Leads tree mostLinks standing above left between ∧
      last ≠ Path.up ∧ last.length ≤ longestName ∧
      tree.Vacant (between.location ++ [last]) ∧ tree.at? (between.location ++ [last]) = none ∧
      grown = tree.put (between.location ++ [last]) (.directory []) := by
  obtain ⟨location, insisted, gets, vacant, absent, put⟩ := makeDirectory_ok made
  unfold follow at gets
  cases starts : Standing.start tree path with
  | none => simp [starts] at gets
  | some standing =>
      simp only [starts] at gets
      -- Without any name the walk would have found a directory.
      obtain ⟨way, last, ends⟩ := (List.eq_nil_or_concat path.segments).resolve_left (by
        intro none
        rw [none, walk_nil] at gets
        cases gets)
      rw [List.concat_eq_append] at ends
      rw [ends] at gets
      obtain ⟨left, between, leads, notHere, notUp, short, there⟩ := walk_nothing gets
      subst there
      refine ⟨standing, way.filter (· ≠ Path.here), last, left, between, rfl, ?_, ?_, notUp, short,
        vacant, absent, put⟩
      · rw [Path.names_eq_filter_segments, ends, List.filter_append]
        simp [notHere]
      · exact leads.congr (by simp [List.filter_filter])

theorem makeDirectory_named {path : Path} {grown : FileTree}
    (made : tree.makeDirectory path = .ok grown) :
    ∃ base, tree.Vacant base ∧ tree.at? base = none ∧ grown.directory? path = some base ∧
      grown = tree.put base (.directory []) := by
  have keeps := (makeDirectory_grows made).keeps
  obtain ⟨standing, above, last, left, between, starts, names, leads, notUp, short, vacant, absent,
    put⟩ := makeDirectory_at made
  refine ⟨_, vacant, absent, ?_, put⟩
  have notHere : last ≠ Path.here := by
    have member : last ∈ path.names := by simp [names]
    rw [Path.names_eq_filter_segments] at member
    simpa using (List.mem_filter.mp member).2
  -- The parent, spelled by the names before the last one, is still there in the grown tree.
  obtain ⟨parent, _, spelled, absolute, _⟩ := Path.parent?_of_names names
  have reaches : tree.Reaches parent left between :=
    ⟨standing, (Standing.start_congr absolute).trans starts, spelled ▸ leads⟩
  obtain ⟨later, ⟨start, startsLater, leadsLater⟩, there⟩ := reaches.keeps keeps
  have standsLater := leadsLater.stands (Standing.stands_start startsLater)
  have new : grown.at? (later.location ++ [last]) = some .directory := by
    rw [there, put, vacant.at?_put fun _ _ => rfl]
    simp [Node.shape]
  obtain ⟨entries, found⟩ := at?_eq_directory_iff.mp new
  rw [← standsLater.lookup] at found
  refine directory?_eq_some_iff.mpr ⟨left, later.enter last entries, ⟨start, ?_, ?_⟩, ?_⟩
  · rw [← startsLater]
    exact (Standing.start_congr absolute).symm
  · rw [names, ← spelled]
    exact leadsLater.append (.enter notHere notUp short found .arrived)
  · rw [Standing.location_enter, there]

theorem makeInside_ok {path : Path} {above : List Path} {after : FileTree}
    (made : tree.makeInside (path :: above) = (.ok (), after)) :
    tree.makeDirectory path = .ok after ∨
      (∃ outer, tree.makeInside above = (.ok (), outer) ∧
        (outer.makeDirectory path = .ok after ∨ outer.isDirectory path = true ∧ after = outer)) ∨
      tree.isDirectory path = true ∧ after = tree := by
  simp only [makeInside] at made
  -- What is above is only made if the first attempt has failed for want of it.
  cases first : tree.makeDirectory path with
  | ok grown =>
      simp only [first] at made
      cases made
      exact .inl rfl
  | error error =>
      simp only [first] at made
      split at made
      · cases inside : tree.makeInside above with
        | mk result outer =>
            rw [inside] at made
            cases result with
            | error failure => cases made
            | ok _ =>
                simp only at made
                cases again : outer.makeDirectory path with
                | ok further =>
                    simp only [again] at made
                    cases made
                    exact .inr (.inl ⟨outer, rfl, .inl again⟩)
                | error failure =>
                    simp only [again] at made
                    split at made
                    · rename_i is
                      cases made
                      exact .inr (.inl ⟨_, rfl, .inr ⟨is, rfl⟩⟩)
                    · cases made
      · split at made
        · rename_i is
          cases made
          exact .inr (.inr ⟨is, rfl⟩)
        · cases made

theorem makeInside_named {path : Path} {above : List Path} {after : FileTree}
    (made : tree.makeInside (path :: above) = (.ok (), after)) :
    ∃ base, after.directory? path = some base := by
  rcases makeInside_ok made with first | ⟨outer, _, again | ⟨is, rfl⟩⟩ | ⟨is, rfl⟩
  · obtain ⟨base, _, _, named, _⟩ := makeDirectory_named first
    exact ⟨base, named⟩
  · obtain ⟨base, _, _, named, _⟩ := makeDirectory_named again
    exact ⟨base, named⟩
  · exact isDirectory_named is
  · exact isDirectory_named is

theorem at?_single_ne_link (name : Name) (content : Bytes) (location : Location) (target : Path) :
    ({ entries := [(name, .file content)] } : FileTree).at? location ≠ some (.link target) := by
  intro link
  rw [at?_eq_link_iff] at link
  cases location with
  | nil => cases link
  | cons first below =>
      simp only [find?, root, Node.find?, List.lookup_cons, List.lookup_nil] at link
      cases same : first == name with
      | false => simp [same] at link
      | true =>
          simp only [same] at link
          cases below <;> cases link

theorem makeDirectories_refused {path : Path} {error : IoError} (nonempty : path ≠ [])
    (refused : refusal path = some error) : tree.makeDirectories path = (.error error, tree) := by
  have other : error ≠ .system SystemError.notFound := by
    unfold refusal at refused
    rintro rfl
    split at refused
    · cases refused
    · simp [SystemError.nameTooLong, SystemError.notFound] at refused
  obtain ⟨above, paths⟩ := Path.ancestors_of_nonempty nonempty
  unfold makeDirectories
  rw [paths]
  simp [makeInside, makeDirectory, isDirectory, metadata, lookup, refused, other]

theorem makeDirectories_named {path : Path} {after : FileTree} (nonempty : path ≠ [])
    (made : tree.makeDirectories path = (.ok (), after)) :
    ∃ base, after.directory? path = some base := by
  obtain ⟨above, paths⟩ := Path.ancestors_of_nonempty nonempty
  unfold makeDirectories at made
  rw [paths] at made
  exact makeInside_named made

end ArchiveTraversal.FileTree
