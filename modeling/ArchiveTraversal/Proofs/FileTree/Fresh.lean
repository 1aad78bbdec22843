import ArchiveTraversal.Proofs.FileTree.Below

/-!
What is below a directory that is made with all its parents. One that was there already has what
it had. One that was not is empty, unless its path climbs: then it may have been there, with the
way to it missing, and hold a directory that has been made on this way.
-/

namespace ArchiveTraversal.FileTree

variable {tree : FileTree}

theorem makeDirectory_fresh {path : Path} {grown : FileTree} {base : Location}
    (made : tree.makeDirectory path = .ok grown) (named : grown.directory? path = some base) :
    tree.at? base = none ∧ ∀ below, below ≠ [] → grown.at? (base ++ below) = none := by
  obtain ⟨there, vacant, absent, namedThere, put⟩ := makeDirectory_named made
  rw [named] at namedThere
  cases namedThere
  refine ⟨absent, ?_⟩
  intro below nonempty
  have elsewhere : base ++ below ≠ base := by simpa using nonempty
  have nothing : tree.at? (base ++ below) = none :=
    at?_append_of_leaf (by simp [absent]) nonempty
  rw [put, vacant.at?_put fun _ _ => rfl, if_neg elsewhere]
  exact nothing

theorem Reaches.last_stands {path parent : Path} {last : Name} {left leftBelow : Nat}
    {middle final : Standing} (reaches : tree.Reaches path leftBelow final)
    (above : tree.Reaches parent left middle) (absolute : parent.isAbsolute = path.isAbsolute)
    (names : path.names = parent.names ++ [last]) (notHere : last ≠ Path.here)
    (notUp : last ≠ Path.up) : tree.at? (middle.location ++ [last]) ≠ none := by
  have stands := above.stands
  obtain ⟨standing, starts, leads⟩ := reaches
  obtain ⟨start, startsAbove, leadsAbove⟩ := above
  rw [Standing.start_congr absolute, starts] at startsAbove
  cases startsAbove
  obtain ⟨insisted, gets⟩ := leads.walk_inspect true
  rw [names, leadsAbove.walk_append (by simp), walk_name _ _ _ notHere notUp] at gets
  intro nothing
  rw [at?_eq_none_iff, ← stands.lookup] at nothing
  rw [nothing] at gets
  simp only [reduceCtorEq, false_and, ↓reduceIte] at gets
  split at gets
  · cases gets
  · simp [Standing.place] at gets

theorem same_of_isDirectory {path parent : Path} {outer : FileTree}
    (notUp : path.names.getLast? ≠ some Path.up) (above : path.parent? = some parent)
    (made : tree.makeInside parent.ancestors = (.ok (), outer))
    (fresh : tree.directory? parent = none → ∀ base, outer.directory? parent = some base →
      ∀ below, below ≠ [] → outer.at? (base ++ below) = none)
    (is : outer.isDirectory path = true) : outer = tree := by
  obtain ⟨location, named⟩ := isDirectory_named is
  cases stood : tree.directory? parent with
  | some base =>
      obtain ⟨left, final, reaches, _⟩ := directory?_eq_some_iff.mp stood
      have same := makeInside_of_reaches reaches
      rw [made] at same
      exact same
  | none =>
      by_cases empty : parent = []
      · subst empty
        cases made
        rfl
      exfalso
      obtain ⟨base, namedParent⟩ := makeDirectories_named empty made
      obtain ⟨names, last, spelled⟩ := (List.eq_nil_or_concat path.names).resolve_left
        fun none => empty (Path.parent?_of_no_names none above)
      rw [List.concat_eq_append] at spelled
      obtain ⟨other, found, namesAbove, absolute, _⟩ := Path.parent?_of_names spelled
      rw [above] at found
      cases found
      have member : last ∈ path.names := by simp [spelled]
      have lastNotUp : last ≠ Path.up := by simpa [spelled] using notUp
      have notHere : last ≠ Path.here := by
        rw [Path.names_eq_filter_segments] at member
        simpa using (List.mem_filter.mp member).2
      -- The parent is new and holds nothing, but the path ends in a name that it should hold.
      obtain ⟨_, _, reaches, _⟩ := directory?_eq_some_iff.mp named
      obtain ⟨_, middle, reachesParent, there⟩ := directory?_eq_some_iff.mp namedParent
      have stands := reaches.last_stands reachesParent absolute
        (by rw [spelled, namesAbove]) notHere lastNotUp
      rw [there] at stands
      exact stands (fresh stood base namedParent [last] (by simp))

/-- Paths of a kind that do not climb where nothing stands, with parents that are of it as well. -/
def Descends (tree : FileTree) (kind : Path → Prop) : Prop :=
  ∀ path, kind path → tree.directory? path = none →
    path.names.getLast? ≠ some Path.up ∧ ∀ parent, path.parent? = some parent → kind parent

theorem descends_of_level (tree : FileTree) : tree.Descends fun path => Path.up ∉ path.names :=
  fun _ level _ => ⟨fun last => level (List.mem_of_getLast? last),
    fun _ above member => level ((Path.names_of_parent above).subset member)⟩

theorem descends_below {output : Path}
    (grounded : output = [] ∨ ∃ base, tree.directory? output = some base) :
    tree.Descends fun path => ∃ names, (∀ name ∈ names, Path.Plain name) ∧
      path.Spells output names := by
  rintro path ⟨names, plain, spells⟩ missing
  rcases List.eq_nil_or_concat names with rfl | ⟨above, last, rfl⟩
  · rcases grounded with rfl | ⟨base, named⟩
    · have none : path.names = [] := spells.names
      refine ⟨by simp [none], fun parent above => ?_⟩
      rw [Path.parent?_of_no_names none above]
      exact ⟨[], plain, rfl, rfl, Path.endsInName_nil⟩
    · obtain ⟨left, final, reaches, there⟩ := directory?_eq_some_iff.mp named
      have again := reaches.congr spells.absolute (by simpa using spells.names)
      rw [directory?_eq_some_iff.mpr ⟨left, final, again, there⟩] at missing
      cases missing
  · rw [List.concat_eq_append] at plain spells
    obtain ⟨parent, found, spellsParent⟩ := spells.parent?
    refine ⟨?_, fun other above => ?_⟩
    · rw [spells.names, ← List.append_assoc, List.getLast?_concat]
      exact fun climbs => (plain last (by simp)).2.2.1 (Option.some.inj climbs)
    · rw [found] at above
      cases above
      exact ⟨_, fun name member => plain name (by simp [member]), spellsParent⟩

theorem makeInside_fresh {kind : Path → Prop} (descends : tree.Descends kind) {path : Path}
    {after : FileTree} {base : Location} (of : kind path) (missing : tree.directory? path = none)
    (made : tree.makeInside path.ancestors = (.ok (), after))
    (named : after.directory? path = some base) :
    tree.at? base = none ∧ ∀ below, below ≠ [] → after.at? (base ++ below) = none := by
  -- On the length of the path: its parent is shorter, and was missing as well.
  induction length : path.length using Nat.strongRecOn generalizing path after base with
  | ind bound shorter =>
      have unnamed : ∀ other, tree.directory? path ≠ some other := by simp [missing]
      by_cases empty : path = []
      · rw [empty, Path.ancestors_nil] at made
        cases made
        exact absurd named (unnamed base)
      -- What is known of the tree in which the parents have been made.
      have again : ∀ outer : FileTree, Grows tree outer →
          (outer.makeDirectory path = .ok after ∨ outer.isDirectory path = true ∧ after = outer) →
          (outer.isDirectory path = true → False) →
          tree.at? base = none ∧ ∀ below, below ≠ [] → after.at? (base ++ below) = none := by
        rintro outer grows (made | ⟨is, _⟩) fresh
        · obtain ⟨absent, nothing⟩ := makeDirectory_fresh made named
          refine ⟨?_, nothing⟩
          rcases grows.view base with same | ⟨absentBefore, _⟩
          · exact same ▸ absent
          · exact absentBefore
        · exact absurd is fresh
      have notIn : tree.isDirectory path = true → False := by
        intro is
        obtain ⟨other, stood⟩ := isDirectory_named is
        exact unnamed other stood
      obtain ⟨notUp, parents⟩ := descends path of missing
      cases above : path.parent? with
      | none =>
          rw [Path.ancestors_of_no_parent empty above] at made
          rcases makeInside_ok made with first | ⟨outer, outside, rest⟩ | ⟨is, _⟩
          · exact again tree (.refl tree) (.inl first) notIn
          · cases outside
            exact again tree (.refl tree) rest notIn
          · exact absurd is notIn
      | some parent =>
          rw [Path.ancestors_of_parent above] at made
          rcases makeInside_ok made with first | ⟨outer, outside, rest⟩ | ⟨is, _⟩
          · exact again tree (.refl tree) (.inl first) notIn
          · have grows : Grows tree outer := by
              have grown := makeInside_grows tree parent.ancestors
              rwa [outside] at grown
            apply again outer grows rest
            intro is
            have same : outer = tree := by
              apply same_of_isDirectory notUp above outside _ is
              intro missingAbove other namedAbove
              exact (shorter parent.length (length ▸ Path.parent?_length above)
                (parents parent above) missingAbove outside namedAbove rfl).2
            exact notIn (same ▸ is)
          · exact absurd is notIn

theorem makeDirectories_idle {kind : Path → Prop} (descends : tree.Descends kind)
    {path parent : Path} {after : FileTree} (of : kind parent)
    (notUp : path.names.getLast? ≠ some Path.up) (above : path.parent? = some parent)
    (made : tree.makeDirectories parent = (.ok (), after))
    (is : after.isDirectory path = true) : after = tree :=
  same_of_isDirectory notUp above made
    (fun missing _ named => (makeInside_fresh descends of missing made named).2) is

/-- Making a directory with its parents changes nothing below it: there is nothing when it had to
be made, unless its path climbs. -/
theorem makeDirectories_below {path : Path} {after : FileTree} {base : Location}
    (settled : Path.up ∉ path.names ∨ tree.directory? path ≠ none)
    (made : tree.makeDirectories path = (.ok (), after))
    (named : after.directory? path = some base) {below : Location} (nonempty : below ≠ []) :
    after.at? (base ++ below) = tree.at? (base ++ below) := by
  cases stood : tree.directory? path with
  | some other =>
      obtain ⟨left, final, reaches, _⟩ := directory?_eq_some_iff.mp stood
      have same : (tree.makeDirectories path).2 = tree := makeInside_of_reaches reaches
      rw [made] at same
      exact congrArg (·.at? (base ++ below)) same
  | none =>
      have level := settled.resolve_right fun stands => stands stood
      obtain ⟨absent, nothing⟩ := makeInside_fresh (descends_of_level tree) level stood made named
      rw [nothing below nonempty]
      exact (at?_append_of_leaf (by simp [absent]) nonempty).symm

end ArchiveTraversal.FileTree
