import ArchiveTraversal.Safety

/-!
What the names of a path become when paths are joined and when a parent is taken. Joining puts the
names of both in a row. A parent loses the last name and no other, whatever fillers stand between
the names; the parents of a path, one after another, lose its names from the last to the first.
-/

namespace ArchiveTraversal.Path

theorem split_append (left right : Path) :
    split (left ++ separator :: right) = split left ++ split right := by
  induction left with
  | nil => simp [split]
  | cons byte rest ih =>
      simp only [List.cons_append, split, ih]
      split
      · rfl
      · cases pieces : split rest with
        | nil => exact absurd pieces (split_ne_nil rest)
        | cons first others => rfl

theorem glue_append (left right : List Name) (someLeft : left ≠ []) (someRight : right ≠ []) :
    glue (left ++ right) = glue left ++ separator :: glue right := by
  induction left with
  | nil => exact absurd rfl someLeft
  | cons name rest ih =>
      cases rest with
      | nil =>
          cases right with
          | nil => exact absurd rfl someRight
          | cons next more => rfl
      | cons next more =>
          have later := ih (by simp)
          simp only [List.cons_append, glue] at later ⊢
          rw [later]
          simp

theorem isAbsolute_eq (path : Path) :
    path.isAbsolute = true ↔ ∃ others, others ≠ [] ∧ split path = [] :: others := by
  cases path with
  | nil => simp [isAbsolute, split]
  | cons byte rest =>
      simp only [isAbsolute, List.head?_cons, Option.some.injEq, decide_eq_true_eq, split]
      by_cases same : byte = separator
      · simpa [same] using split_ne_nil rest
      · cases pieces : split rest <;> simp [same]

theorem names_eq_filter_segments (path : Path) :
    path.names = path.segments.filter (· ≠ here) := by
  simp only [names, segments, List.filter_filter]
  apply List.filter_congr
  intro name _
  by_cases empty : name = [] <;> simp [empty]

/-- What a member's accepted path is made of: names that a walk goes down by. -/
def Plain (name : Name) : Prop := name ≠ [] ∧ name ≠ here ∧ name ≠ up ∧ separator ∉ name

theorem segments_glue (parts : List Name) (plain : ∀ name ∈ parts, Plain name) :
    segments (glue parts) = parts := by
  cases parts with
  | nil => simp [segments, glue, split]
  | cons name rest =>
      unfold segments
      rw [split_glue _ (by simp) fun other member => (plain other member).2.2.2]
      apply List.filter_eq_self.mpr
      intro other member
      simpa using (plain other member).1

theorem names_glue (parts : List Name) (plain : ∀ name ∈ parts, Plain name) :
    names (glue parts) = parts := by
  rw [names_eq_filter_segments, segments_glue parts plain]
  apply List.filter_eq_self.mpr
  intro name member
  simpa using (plain name member).2.1

theorem isAbsolute_glue (parts : List Name) (plain : ∀ name ∈ parts, Plain name) :
    isAbsolute (glue parts) = false := by
  cases parts with
  | nil => rfl
  | cons name rest =>
      have first := plain name List.mem_cons_self
      apply Bool.eq_false_iff.mpr
      intro absolute
      obtain ⟨others, _, pieces⟩ := (isAbsolute_eq _).mp absolute
      rw [split_glue _ (by simp) fun other member => (plain other member).2.2.2] at pieces
      exact first.1 (List.cons.inj pieces).1

theorem isAbsolute_name {name : Name} (plain : Plain name) : isAbsolute name = false := by
  simpa [glue] using isAbsolute_glue [name] (by simpa using plain)

theorem segments_name {name : Name} (plain : Plain name) : segments name = [name] := by
  simpa [glue] using segments_glue [name] (by simpa using plain)

theorem segments_join (base child : Path) (relative : child.isAbsolute = false) :
    segments (join base child) = segments base ++ segments child := by
  unfold join
  simp only [relative, Bool.false_eq_true, ↓reduceIte]
  split
  · rename_i ends
    rcases ends with empty | ends
    · simp [empty, segments, split]
    · simp only [endsInSeparator, decide_eq_true_eq] at ends
      obtain ⟨shorter, rfl⟩ := List.getLast?_eq_some_iff.mp ends
      simp [segments, split_append, split]
  · simp [segments, split_append]

theorem isAbsolute_join (base child : Path) (relative : child.isAbsolute = false) :
    isAbsolute (join base child) = isAbsolute base := by
  unfold join
  simp only [relative, Bool.false_eq_true, ↓reduceIte]
  cases base with
  | nil => simpa [show isAbsolute [] = false from rfl] using relative
  | cons byte rest =>
      split <;> simp [isAbsolute]

theorem names_join (base child : Path) (relative : child.isAbsolute = false) :
    names (join base child) = names base ++ names child := by
  rw [names_eq_filter_segments, names_eq_filter_segments base, names_eq_filter_segments child,
    segments_join base child relative, List.filter_append]

/-- The directories that lead to a member have the member's first names below the base. -/
theorem segments_leadingTo {base path : Path} {parts : List Name}
    (plain : ∀ name ∈ parts, Plain name) (member : path ∈ leadingTo base parts) :
    path.isAbsolute = base.isAbsolute ∧
      ∃ above last below, parts = above ++ last :: below ∧ below ≠ [] ∧
        path.segments = base.segments ++ above ++ [last] := by
  induction parts generalizing base with
  | nil => simp [leadingTo] at member
  | cons name rest ih =>
      cases rest with
      | nil => simp [leadingTo] at member
      | cons next below =>
          have first := plain name List.mem_cons_self
          have relative := isAbsolute_name first
          rcases List.mem_cons.mp member with same | later
          · subst same
            refine ⟨isAbsolute_join _ _ relative, [], name, next :: below, rfl, by simp, ?_⟩
            simp [segments_join _ _ relative, segments_name first]
          · obtain ⟨absolute, above, last, deeper, parts, more, pieces⟩ :=
              ih (fun other inner => plain other (List.mem_cons_of_mem _ inner)) later
            refine ⟨absolute.trans (isAbsolute_join _ _ relative), name :: above, last, deeper,
              by simp [parts], more, ?_⟩
            simp [pieces, segments_join _ _ relative, segments_name first]

/-- A path ends in a name when nothing but the name stands last. A path without names has no name
to end in, and passes. -/
def EndsInName (path : Path) : Prop := path.names ≠ [] → path.segments.getLast? ≠ some here

theorem EndsInName.segments_eq {path : Path} (ends : path.EndsInName) {above : List Name}
    {last : Name} (spelled : path.names = above ++ [last]) :
    ∃ way, path.segments = way ++ [last] ∧ way.filter (· ≠ here) = above := by
  have nonempty : path.segments ≠ [] := by
    intro none
    rw [names_eq_filter_segments, none] at spelled
    simp at spelled
  obtain ⟨way, final, pieces⟩ := (List.eq_nil_or_concat path.segments).resolve_left nonempty
  have notHere : final ≠ here := by
    have := ends (by simp [spelled])
    simpa [pieces] using this
  have parts : way.filter (· ≠ here) ++ [final] = above ++ [last] := by
    rw [← spelled, names_eq_filter_segments, pieces]
    simp [List.filter_append, notHere]
  obtain ⟨same, finals⟩ := List.append_inj' parts rfl
  exact ⟨way, by simpa [List.cons.inj finals] using pieces, same⟩

def namesAmong (pieces : List Name) : List Name :=
  pieces.filter fun name => name ≠ [] ∧ name ≠ here

theorem namesAmong_split (path : Path) : namesAmong (split path) = path.names := rfl

theorem namesAmong_append (left right : List Name) :
    namesAmong (left ++ right) = namesAmong left ++ namesAmong right := List.filter_append ..

theorem namesAmong_of_filler {name : Name} (filler : isFiller name = true) (rest : List Name) :
    namesAmong (name :: rest) = namesAmong rest := by
  simp only [isFiller, Bool.decide_or, Bool.or_eq_true, decide_eq_true_eq] at filler
  rcases filler with empty | stays
  · simp [namesAmong, empty]
  · simp [namesAmong, stays]

theorem namesAmong_of_solid {name : Name} (solid : isFiller name = false) (rest : List Name) :
    namesAmong (name :: rest) = name :: namesAmong rest := by
  simp only [isFiller, decide_eq_false_iff_not, not_or] at solid
  simp [namesAmong, solid]

theorem namesAmong_fillers {pieces : List Name} (fillers : ∀ name ∈ pieces, isFiller name = true) :
    namesAmong pieces = [] := by
  induction pieces with
  | nil => rfl
  | cons name rest ih =>
      rw [namesAmong_of_filler (fillers name List.mem_cons_self)]
      exact ih fun other member => fillers other (List.mem_cons_of_mem _ member)

theorem namesAmong_dropWhile (pieces : List Name) :
    namesAmong (pieces.dropWhile isFiller).reverse = namesAmong pieces.reverse := by
  induction pieces with
  | nil => rfl
  | cons name rest ih =>
      cases filler : isFiller name with
      | true =>
          rw [List.dropWhile_cons_of_pos filler, ih, List.reverse_cons, namesAmong_append,
            namesAmong_of_filler filler]
          simp [namesAmong]
      | false => rw [List.dropWhile_cons_of_neg (by simp [filler])]

/-- Pieces with a name among them: the last name, what stands before it, and fillers after it. -/
theorem pieces_of_stripped {pieces above : List Name} {last : Name}
    (stripped : pieces.reverse.dropWhile isFiller = last :: above) :
    isFiller last = false ∧ ∃ fillers, (∀ name ∈ fillers, isFiller name = true) ∧
      pieces = above.reverse ++ last :: fillers := by
  have solid := List.head?_dropWhile_not isFiller pieces.reverse
  rw [stripped] at solid
  refine ⟨by simpa using solid, (pieces.reverse.takeWhile isFiller).reverse, ?_, ?_⟩
  · intro name member
    have all := List.all_takeWhile (p := isFiller) (l := pieces.reverse)
    exact List.all_eq_true.mp all name (List.mem_reverse.mp member)
  · have whole := List.takeWhile_append_dropWhile (p := isFiller) (l := pieces.reverse)
    rw [stripped] at whole
    simpa using congrArg List.reverse whole.symm

theorem names_of_stripped {path : Path} {first : Name} {others above : List Name} {last : Name}
    (pieces : split path = first :: others)
    (stripped : others.reverse.dropWhile isFiller = last :: above) :
    path.names = namesAmong (first :: (above.dropWhile isFiller).reverse) ++ [last] := by
  obtain ⟨solid, fillers, lost, whole⟩ := pieces_of_stripped stripped
  have kept := namesAmong_dropWhile above
  calc path.names
      = namesAmong (([first] ++ above.reverse) ++ last :: fillers) := by
        rw [← namesAmong_split, pieces, whole, List.append_assoc, List.singleton_append]
    _ = namesAmong ([first] ++ above.reverse) ++ [last] := by
        rw [namesAmong_append, namesAmong_of_solid solid, namesAmong_fillers lost]
    _ = namesAmong ([first] ++ (above.dropWhile isFiller).reverse) ++ [last] := by
        rw [namesAmong_append, namesAmong_append, kept]
    _ = namesAmong (first :: (above.dropWhile isFiller).reverse) ++ [last] := rfl

theorem names_of_fillers {path : Path} {first : Name} {others : List Name}
    (pieces : split path = first :: others) (stripped : others.reverse.dropWhile isFiller = []) :
    path.names = namesAmong [first] := by
  have lost := namesAmong_dropWhile others.reverse
  rw [stripped, List.reverse_reverse] at lost
  rw [← namesAmong_split, pieces, ← List.singleton_append, namesAmong_append, ← lost]
  simp [namesAmong]

theorem endsInName_nil : EndsInName [] := by simp [EndsInName, names, split]

theorem endsInName_separator : EndsInName [separator] := by simp [EndsInName, names, split]

theorem endsInName_glue {first : Name} {kept : List Name}
    (whole : ∀ name ∈ first :: kept, separator ∉ name)
    (solid : ∀ name, kept.getLast? = some name → isFiller name = false) :
    EndsInName (glue (first :: kept)) := by
  intro some
  unfold segments
  rw [split_glue _ (by simp) whole]
  rcases List.eq_nil_or_concat kept with none | ⟨way, last, ends⟩
  · subst none
    rw [← namesAmong_split, split_glue _ (by simp) whole] at some
    intro stays
    have isHere : first = here := by
      by_cases empty : first = []
      · simp [empty] at stays
      · simpa [empty] using stays
    exact some (by simp [namesAmong, isHere])
  · have last := solid last (by simp [ends])
    simp only [isFiller, decide_eq_false_iff_not, not_or] at last
    rw [ends, List.concat_eq_append, ← List.cons_append, List.filter_append]
    simp [last]

theorem not_isFiller_getLast? {pieces : List Name} {name : Name}
    (ends : (pieces.dropWhile isFiller).reverse.getLast? = some name) :
    isFiller name = false := by
  have head := List.head?_dropWhile_not isFiller pieces
  rw [List.getLast?_reverse] at ends
  simpa [ends] using head

theorem isAbsolute_of_split {path : Path} {first : Name} {others : List Name}
    (pieces : split path = first :: others) :
    path.isAbsolute = true ↔ first = [] ∧ others ≠ [] := by
  rw [isAbsolute_eq, pieces]
  constructor
  · rintro ⟨rest, some, same⟩
    obtain ⟨rfl, rfl⟩ := List.cons.inj same
    exact ⟨rfl, some⟩
  · rintro ⟨rfl, some⟩
    exact ⟨others, some, rfl⟩

theorem parent?_of_fillers {path : Path} {first : Name} {others : List Name}
    (pieces : split path = first :: others) (stripped : others.reverse.dropWhile isFiller = []) :
    path.parent? = if first = [] then none else some [] := by
  simp only [parent?, pieces, stripped]

theorem parent?_of_stripped {path : Path} {first : Name} {others above : List Name} {last : Name}
    (pieces : split path = first :: others)
    (stripped : others.reverse.dropWhile isFiller = last :: above) :
    path.parent? = some (if first = [] ∧ (above.dropWhile isFiller).reverse = [] then [separator]
      else glue (first :: (above.dropWhile isFiller).reverse)) := by
  simp only [parent?, pieces, stripped]
  split <;> rfl

theorem parent?_of_first_name {path : Path} {first : Name} {others above : List Name} {last : Name}
    (pieces : split path = first :: others) (stripped : others.reverse.dropWhile isFiller = [])
    (spelled : path.names = above ++ [last]) :
    path.parent? = some [] ∧ above = [] ∧ path.isAbsolute = false := by
  have only := names_of_fillers pieces stripped
  have someFirst : first ≠ [] := by
    rintro rfl
    simp [only, namesAmong] at spelled
  have single : above = [] := by
    by_cases stays : first = here
    · simp [only, namesAmong, stays] at spelled
    · have same : [first] = above ++ [last] := by
        rw [← spelled, only]
        simp [namesAmong, someFirst, stays]
      cases above with
      | nil => rfl
      | cons name rest => simp at same
  have relative : path.isAbsolute = false := by
    apply Bool.eq_false_iff.mpr
    intro absolute
    exact someFirst ((isAbsolute_of_split pieces).mp absolute).1
  exact ⟨by simp [parent?_of_fillers pieces stripped, someFirst], single, relative⟩

/-- The parent of a path with names has all of them but the last. -/
theorem parent?_of_names {path : Path} {above : List Name} {last : Name}
    (spelled : path.names = above ++ [last]) :
    ∃ parent, path.parent? = some parent ∧ parent.names = above ∧
      parent.isAbsolute = path.isAbsolute ∧ parent.EndsInName := by
  cases pieces : split path with
  | nil => exact absurd pieces (split_ne_nil path)
  | cons first others =>
      cases stripped : others.reverse.dropWhile isFiller with
      | nil =>
          -- Nothing but fillers after the first piece: the path has one name and nothing above.
          obtain ⟨parent, single, relative⟩ := parent?_of_first_name pieces stripped spelled
          exact ⟨[], parent, by simp [single, names, split], by rw [relative]; rfl, endsInName_nil⟩
      | cons final rest =>
          obtain ⟨_, fillers, _, whole⟩ := pieces_of_stripped stripped
          -- What is left after the last name and the fillers around it spells the parent.
          have parts := names_of_stripped pieces stripped
          rw [spelled] at parts
          have same := (List.append_inj' parts rfl).1
          have absolute := isAbsolute_of_split pieces
          have someOthers : others ≠ [] := by simp [whole]
          refine ⟨_, parent?_of_stripped pieces stripped, ?_⟩
          split
          · rename_i root
            refine ⟨?_, ?_, endsInName_separator⟩
            · rw [same, root.1, root.2]
              rfl
            · rw [absolute.mpr ⟨root.1, someOthers⟩]
              rfl
          · rename_i notRoot
            have inner : ∀ name ∈ first :: (rest.dropWhile isFiller).reverse, separator ∉ name := by
              intro name member
              apply separator_not_mem_split
              rw [pieces, whole]
              rcases List.mem_cons.mp member with head | tail
              · simp [head]
              · have kept := (List.dropWhile_sublist _).subset (List.mem_reverse.mp tail)
                simp [kept]
            have again := split_glue _ (by simp) inner
            refine ⟨?_, ?_, endsInName_glue inner fun name ends => not_isFiller_getLast? ends⟩
            · rw [← namesAmong_split, again, same]
            · apply Bool.eq_iff_iff.mpr
              rw [isAbsolute_of_split again, absolute]
              constructor
              · rintro ⟨empty, _⟩
                exact ⟨empty, someOthers⟩
              · rintro ⟨empty, _⟩
                exact ⟨empty, fun none => notRoot ⟨empty, none⟩⟩

theorem parent?_of_no_names {path parent : Path} (none : path.names = [])
    (above : path.parent? = some parent) : parent = [] := by
  cases pieces : split path with
  | nil => exact absurd pieces (split_ne_nil path)
  | cons first others =>
      cases stripped : others.reverse.dropWhile isFiller with
      | nil =>
          rw [parent?_of_fillers pieces stripped] at above
          split at above
          · cases above
          · exact (Option.some.inj above).symm
      | cons last rest =>
          rw [names_of_stripped pieces stripped] at none
          simp at none

theorem names_of_parent {path parent : Path} (above : path.parent? = some parent) :
    parent.names <+: path.names := by
  rcases List.eq_nil_or_concat path.names with none | ⟨names, last, spelled⟩
  · rw [parent?_of_no_names none above]
    exact List.nil_prefix
  · rw [List.concat_eq_append] at spelled
    obtain ⟨other, found, same, _⟩ := parent?_of_names spelled
    rw [above] at found
    cases found
    rw [same, spelled]
    exact List.prefix_append names [last]

theorem length_le_glue {name : Name} {parts : List Name} (member : name ∈ parts) :
    name.length ≤ (glue parts).length := by
  induction parts with
  | nil => cases member
  | cons first rest ih =>
      cases rest with
      | nil => simp_all [glue]
      | cons next more =>
          rcases List.mem_cons.mp member with same | later
          · simp [glue, same]
          · have := ih later
            simp only [glue, List.length_append, List.length_cons]
            omega

theorem parent?_length {path parent : Path} (above : path.parent? = some parent) :
    parent.length < path.length := by
  cases pieces : split path with
  | nil => exact absurd pieces (split_ne_nil path)
  | cons first others =>
      have spelled := glue_split path
      rw [pieces] at spelled
      cases stripped : others.reverse.dropWhile isFiller with
      | nil =>
          rw [parent?_of_fillers pieces stripped] at above
          split at above
          · cases above
          · rename_i someFirst
            cases above
            apply List.length_pos_iff.mpr
            rintro rfl
            simp [split] at pieces
            exact someFirst pieces.1
      | cons final rest =>
          obtain ⟨solid, fillers, _, whole⟩ := pieces_of_stripped stripped
          rw [parent?_of_stripped pieces stripped] at above
          have turned : (rest.dropWhile isFiller).reverse ++ (rest.takeWhile isFiller).reverse =
              rest.reverse := by
            rw [← List.reverse_append, List.takeWhile_append_dropWhile]
          have cut : first :: others = (first :: (rest.dropWhile isFiller).reverse) ++
              ((rest.takeWhile isFiller).reverse ++ final :: fillers) := by
            rw [whole, ← turned]
            simp
          have someFinal : 1 ≤ final.length := by
            simp only [isFiller, decide_eq_false_iff_not, not_or] at solid
            exact List.length_pos_iff.mpr solid.1
          -- The parent lacks the last name at least, and a name is not empty.
          have later : final.length ≤
              (glue ((rest.takeWhile isFiller).reverse ++ final :: fillers)).length :=
            length_le_glue (List.mem_append_right _ List.mem_cons_self)
          rw [cut, glue_append _ _ (by simp) (by simp)] at spelled
          have total := congrArg List.length spelled
          simp only [List.length_append, List.length_cons] at total
          cases above
          split
          · simp only [List.length_singleton]
            omega
          · omega

theorem ancestorsWithin_of_length_le {bound : Nat} {path : Path} (enough : path.length ≤ bound) :
    ancestorsWithin bound path = ancestors path := by
  induction bound using Nat.strongRecOn generalizing path with
  | ind bound ih =>
      unfold ancestors
      by_cases empty : path = []
      · subst empty
        cases bound <;> simp [ancestorsWithin]
      · have length := List.length_pos_iff.mpr empty
        obtain ⟨more, rfl⟩ : ∃ more, bound = more + 1 := ⟨bound - 1, by omega⟩
        obtain ⟨less, same⟩ : ∃ less, path.length = less + 1 := ⟨path.length - 1, by omega⟩
        rw [same]
        simp only [ancestorsWithin, empty, ↓reduceIte]
        cases above : path.parent? with
        | none => rfl
        | some parent =>
            have shorter := parent?_length above
            simp only
            rw [ih more (by omega) (by omega), ih less (by omega) (by omega)]

theorem ancestors_nil : ancestors [] = [] := rfl

theorem ancestors_of_no_parent {path : Path} (nonempty : path ≠ []) (none : path.parent? = none) :
    path.ancestors = [path] := by
  have length := List.length_pos_iff.mpr nonempty
  obtain ⟨less, same⟩ : ∃ less, path.length = less + 1 := ⟨path.length - 1, by omega⟩
  simp [ancestors, same, ancestorsWithin, nonempty, none]

theorem ancestors_of_parent {path parent : Path} (above : path.parent? = some parent) :
    path.ancestors = path :: parent.ancestors := by
  have shorter := parent?_length above
  have nonempty : path ≠ [] := List.length_pos_iff.mp (by omega)
  obtain ⟨less, length⟩ : ∃ less, path.length = less + 1 := ⟨path.length - 1, by omega⟩
  unfold ancestors
  rw [length]
  simp only [ancestorsWithin, nonempty, ↓reduceIte, above]
  rw [ancestorsWithin_of_length_le (by omega)]
  rfl

theorem ancestors_of_nonempty {path : Path} (nonempty : path ≠ []) :
    ∃ above, path.ancestors = path :: above := by
  cases above : path.parent? with
  | none => exact ⟨[], ancestors_of_no_parent nonempty above⟩
  | some parent => exact ⟨parent.ancestors, ancestors_of_parent above⟩

theorem isAbsolute_parent {path parent : Path} (relative : path.isAbsolute = false)
    (above : path.parent? = some parent) : parent.isAbsolute = false := by
  rcases List.eq_nil_or_concat path.names with none | ⟨names, last, spelled⟩
  · rw [parent?_of_no_names none above]
    rfl
  · rw [List.concat_eq_append] at spelled
    obtain ⟨other, found, _, same, _⟩ := parent?_of_names spelled
    rw [above] at found
    cases found
    exact same.trans relative

theorem isAbsolute_ancestors {path : Path} (relative : path.isAbsolute = false) :
    ∀ above ∈ path.ancestors, above.isAbsolute = false := by
  induction length : path.length using Nat.strongRecOn generalizing path with
  | ind bound shorter =>
      by_cases empty : path = []
      · simp [empty, ancestors_nil]
      cases above : path.parent? with
      | none =>
          rw [ancestors_of_no_parent empty above]
          simpa using relative
      | some parent =>
          rw [ancestors_of_parent above]
          rintro other (_ | ⟨_, member⟩)
          · exact relative
          · exact shorter parent.length (length ▸ parent?_length above)
              (isAbsolute_parent relative above) rfl other member

/-- A path that has a base's names and then some of its own, and ends in the last of them. -/
structure Spells (path base : Path) (below : List Name) : Prop where
  absolute : path.isAbsolute = base.isAbsolute
  names : path.names = base.names ++ below
  ends : path.EndsInName

theorem endsInName_of_segments {path : Path} {way : List Name} {last : Name}
    (pieces : path.segments = way ++ [last]) (plain : Plain last) : path.EndsInName := by
  intro _
  simpa [pieces] using plain.2.1

theorem spells_join (base : Path) {below : List Name} (some : below ≠ [])
    (plain : ∀ name ∈ below, Plain name) : (base.join (glue below)).Spells base below := by
  have relative := isAbsolute_glue below plain
  refine ⟨isAbsolute_join _ _ relative, ?_, ?_⟩
  · rw [names_join _ _ relative, names_glue below plain]
  · obtain ⟨way, last, ends⟩ := (List.eq_nil_or_concat below).resolve_left some
    rw [List.concat_eq_append] at ends
    have pieces : (base.join (glue below)).segments = (base.segments ++ way) ++ [last] := by
      rw [segments_join _ _ relative, segments_glue below plain, ends, List.append_assoc]
    exact endsInName_of_segments pieces (plain last (by simp [ends]))

theorem spells_leadingTo {base path : Path} {parts : List Name}
    (plain : ∀ name ∈ parts, Plain name) (member : path ∈ leadingTo base parts) :
    ∃ above below, parts = above ++ below ∧ above ≠ [] ∧ below ≠ [] ∧
      path.Spells base above := by
  obtain ⟨absolute, above, last, below, rfl, more, pieces⟩ := segments_leadingTo plain member
  refine ⟨above ++ [last], below, by simp, by simp, more, absolute, ?_, ?_⟩
  · have kept : (above ++ [last]).filter (· ≠ here) = above ++ [last] := by
      apply List.filter_eq_self.mpr
      intro name inner
      have := (plain name (by simp at inner ⊢; grind)).2.1
      simpa using this
    rw [names_eq_filter_segments, names_eq_filter_segments, pieces, List.append_assoc,
      List.filter_append, kept]
  · exact endsInName_of_segments pieces (plain last (by simp))

theorem Spells.parent? {path base : Path} {above : List Name} {last : Name}
    (spells : path.Spells base (above ++ [last])) :
    ∃ parent, path.parent? = some parent ∧ parent.Spells base above := by
  have split : path.names = (base.names ++ above) ++ [last] := by
    rw [spells.names, List.append_assoc]
  obtain ⟨parent, found, names, absolute, ends⟩ := parent?_of_names split
  exact ⟨parent, found, absolute.trans spells.absolute, names, ends⟩

end ArchiveTraversal.Path
