import ArchiveTraversal.Proofs.FileTree.Edit

/-!
What is left standing when files are removed and put. Where a link is removed because a file stands
at its end, no way to a directory has led along it. So all directories that paths named before are
named by the same paths afterwards.
-/

namespace ArchiveTraversal.FileTree

variable {tree : FileTree}

theorem isFile_ok {path : Path} (is : tree.isFile path = true) :
    path.endsInSeparator = false ∧ ∃ location content insisted,
      tree.follow .inspect false path = .ok ⟨location, some (.file content), insisted⟩ := by
  unfold isFile at is
  split at is
  · rename_i content looked
    unfold metadata at looked
    split at looked
    · cases looked
    · cases looked
    · cases looked
    · rename_i location node insisted notDirectory found
      obtain ⟨_, gets⟩ := lookup_ok found
      split at looked
      · cases looked
      · rename_i lenient
        cases looked
        cases level : path.endsInSeparator with
        | false => exact ⟨rfl, location, content, insisted, level ▸ gets⟩
        | true =>
            rw [level] at gets
            unfold follow at gets
            split at gets
            · cases gets
            · exact absurd (walk_insists gets) lenient
  · cases is

theorem not_isFile_of_named {path : Path} {base : Location}
    (named : tree.directory? path = some base) : tree.isFile path = false := by
  rw [Bool.eq_false_iff]
  intro is
  obtain ⟨_, location, content, insisted, gets⟩ := isFile_ok is
  obtain ⟨left, final, reaches, _⟩ := directory?_eq_some_iff.mp named
  obtain ⟨standing, starts, leads⟩ := reaches.leads_segments
  simp only [follow, starts] at gets
  cases (leads.agrees gets).2

theorem Standing.eq_of_location {one other : Standing} (stands : one.Stands tree)
    (standsToo : other.Stands tree) (same : one.location = other.location) : one = other := by
  have trails : one.trail = other.trail := List.reverse_inj.mp same
  have entries : one.entries = other.entries := by
    rw [Stands, ← trails] at standsToo
    simpa [Stands] using stands.symm.trans standsToo
  cases one
  cases other
  cases trails
  cases entries
  rfl

/-- A lookup that takes a link has come to it by a way through directories. -/
theorem follow_link {path target : Path} {location : Location} {insisted : Bool}
    (taking : tree.follow .takeLink false path = .ok ⟨location, some (.link target), insisted⟩) :
    ∃ standing between way last left, Standing.start tree path = some standing ∧
      path.segments = way ++ [last] ∧ Leads tree mostLinks standing way left between ∧
      last ≠ Path.here ∧ last ≠ Path.up ∧ last.length ≤ longestName ∧
      between.entries.lookup last = some (.link target) ∧
      location = between.location ++ [last] := by
  unfold follow at taking
  split at taking
  · cases taking
  rename_i standing starts
  rcases List.eq_nil_or_concat path.segments with none | ⟨way, last, pieces⟩
  · rw [none, walk_nil] at taking
    cases taking
  rw [List.concat_eq_append] at pieces
  rw [pieces] at taking
  -- Up to the last name the walk has gone through directories. Only there can it take a link.
  obtain ⟨left, between, leads⟩ := leads_of_walk (by simp) taking
  rw [leads.walk_append (by simp)] at taking
  by_cases isHere : last = Path.here
  · rw [isHere, walk_here, walk_nil] at taking
    cases taking
  by_cases isUp : last = Path.up
  · rw [isUp, walk_up, walk_nil] at taking
    cases taking
  rw [walk_name _ _ _ isHere isUp] at taking
  simp only [reduceCtorEq, false_and, ↓reduceIte, true_and, Bool.not_false] at taking
  split at taking
  · cases taking
  rename_i short
  have short := Nat.not_lt.mp short
  cases found : between.entries.lookup last with
  | none => simp [found, Standing.place] at taking
  | some node =>
      cases node with
      | file content => simp [found, Standing.place] at taking
      | directory entries =>
          simp only [found, walk_nil] at taking
          cases taking
      | link other =>
          simp only [found, Standing.place] at taking
          cases taking
          exact ⟨standing, between, way, last, left, starts, pieces, leads, isHere, isUp, short,
            found, by simp [Standing.location]⟩

/-- A path that leads to a file cannot have taken a link to a directory at its end. -/
theorem no_way_along {path target : Path} {location : Location} {insisted : Bool}
    {standing final : Standing} {name : Name} {links left : Nat} (is : tree.isFile path = true)
    (taking : tree.follow .takeLink false path = .ok ⟨location, some (.link target), insisted⟩)
    (stands : standing.Stands tree) (here : standing.location ++ [name] = location)
    (leads : Leads tree links (if target.isAbsolute then .atRoot tree else standing)
      target.segments left final) : False := by
  obtain ⟨_, there, content, lenient, seeing⟩ := isFile_ok is
  obtain ⟨start, between, way, last, remaining, starts, pieces, along, notHere, notUp, short, found,
    ends⟩ := follow_link taking
  have betweenStands := along.stands (Standing.stands_start starts)
  obtain ⟨same, _⟩ := List.append_inj' (here.trans ends) rfl
  have itself : standing = between := Standing.eq_of_location stands betweenStands same
  subst itself
  -- Seen through, the link is followed to where the file is.
  simp only [follow, starts, pieces] at seeing
  rw [along.walk_append (by simp), walk_name _ _ _ notHere notUp, found] at seeing
  simp only [reduceCtorEq, false_and, Nat.not_lt.mpr short, ↓reduceIte] at seeing
  cases remaining with
  | zero => cases seeing
  | succ prior =>
      rw [onward, List.append_nil] at seeing
      cases (leads.agrees seeing).2

theorem removeFile_spares {path : Path} {smaller : FileTree} (is : tree.isFile path = true)
    (removed : tree.removeFile path = .ok smaller) : Spares tree smaller := by
  obtain ⟨location, node, insisted, taking, vacant, found, rfl⟩ := removeFile_ok removed
  rw [(isFile_ok is).1] at taking
  constructor
  · exact workingDirectory_remove ..
  · intro other directory
    have elsewhere : other ≠ location := by
      rintro rfl
      exact vacant.leaf directory
    rw [vacant.at?_remove, if_neg elsewhere]
    exact directory
  · intro standing final name target links left stands link leads
    have elsewhere : standing.location ++ [name] ≠ location := by
      intro here
      rw [here, at?_eq_link_iff] at link
      cases found.symm.trans link
      exact no_way_along is taking stands here leads
    rw [vacant.at?_remove, if_neg elsewhere]
    exact link

theorem removeFile_kept {path : Path} {smaller : FileTree}
    (removed : tree.removeFile path = .ok smaller) : Keeps smaller tree := by
  obtain ⟨location, node, insisted, taking, vacant, found, rfl⟩ := removeFile_ok removed
  have kept : ∀ {other : Location} {shape : Shape},
      (tree.remove location).at? other = some shape → tree.at? other = some shape := by
    intro other shape stands
    rw [vacant.at?_remove] at stands
    split at stands
    · cases stands
    · exact stands
  exact ⟨(workingDirectory_remove ..).symm, fun _ => kept, fun _ _ => kept⟩

theorem put_keeps {location : Location} (vacant : tree.Vacant location)
    (notLink : ∀ target, tree.at? location ≠ some (.link target)) (content : Bytes) :
    Keeps tree (tree.put location (.file content)) := by
  constructor
  · exact workingDirectory_put ..
  · intro other directory
    have elsewhere : other ≠ location := by
      rintro rfl
      exact vacant.leaf directory
    rw [vacant.at?_put_file, if_neg elsewhere]
    exact directory
  · intro other target link
    have elsewhere : other ≠ location := by
      rintro rfl
      exact notLink target link
    rw [vacant.at?_put_file, if_neg elsewhere]
    exact link

theorem createFile_keeps {path : Path} {location : Location} {opened : FileTree}
    (created : tree.createFile path = .ok (location, opened)) : Keeps tree opened := by
  unfold createFile at created
  split at created
  · cases created
  · cases created
  · rename_i node insisted notDirectory looked
    cases created
    obtain ⟨vacant, found, taken⟩ := vacant_of_follow (lookup_ok looked).2 notDirectory
    apply put_keeps vacant
    intro target link
    rw [at?_eq_link_iff] at link
    cases taken target (found.symm.trans link)

theorem fill_keeps {path : Path} {location : Location} {opened : FileTree}
    (created : tree.createFile path = .ok (location, opened)) (content : Bytes) :
    Keeps opened (opened.put location (.file content)) := by
  obtain ⟨_, _, _, vacant, rfl⟩ := createFile_ok created
  apply put_keeps (vacant.put_file [])
  intro target link
  rw [vacant.at?_put_file, if_pos rfl] at link
  cases link

end ArchiveTraversal.FileTree
