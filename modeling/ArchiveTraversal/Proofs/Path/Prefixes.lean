import ArchiveTraversal.Proofs.Path

/-!
Paths that others begin with. The first names of a path spell its first bytes, below a directory as
well; so does its parent, wherever it has one. To put names below a directory one after the other is
to put them below it at once.
-/

namespace ArchiveTraversal.Path

theorem glue_shorter {upper names : List Name} (some : upper ≠ []) (shorter : upper <+: names) :
    glue upper <+: glue names := by
  obtain ⟨below, rfl⟩ := shorter
  by_cases whole : below = []
  · simp [whole]
  · rw [glue_append upper below some whole]
    exact List.prefix_append _ _

theorem parent?_shorter {path parent : Path} (above : path.parent? = some parent) :
    parent <+: path := by
  cases pieces : split path with
  | nil => exact absurd pieces (split_ne_nil path)
  | cons first others =>
      have spelled := glue_split path
      rw [pieces] at spelled
      cases stripped : others.reverse.dropWhile isFiller with
      | nil =>
          rw [parent?_of_fillers pieces stripped] at above
          split at above
          · cases above
          · cases above
            exact List.nil_prefix
      | cons final rest =>
          obtain ⟨_, fillers, _, whole⟩ := pieces_of_stripped stripped
          rw [parent?_of_stripped pieces stripped] at above
          cases above
          split
          · rename_i root
            -- The root is what an empty first piece spells, with the separator after it.
            have bytes := glue_append [[]] others (by simp) (by simp [whole])
            rw [← spelled, root.1]
            exact ⟨glue others, bytes.symm⟩
          · rw [← spelled]
            apply glue_shorter (by simp)
            rw [whole, List.prefix_cons_inj]
            exact (List.reverse_prefix.mpr (List.dropWhile_suffix isFiller)).trans
              (List.prefix_append _ _)

theorem parent?_glue {above : List Name} {last : Name}
    (plain : ∀ name ∈ above ++ [last], Plain name) :
    (glue (above ++ [last])).parent? = some (glue above) := by
  have solid : ∀ name ∈ above ++ [last], isFiller name = false := by
    intro name member
    obtain ⟨some, notHere, _⟩ := plain name member
    simp [isFiller, some, notHere]
  have pieces := split_glue (above ++ [last]) (by simp) fun name member =>
    (plain name member).2.2.2
  cases above with
  | nil =>
      have some : last ≠ [] := (plain last (by simp)).1
      rw [parent?_of_fillers pieces rfl, if_neg some]
      rfl
  | cons first rest =>
      have some : first ≠ [] := (plain first (by simp)).1
      have kept : rest.reverse.dropWhile isFiller = rest.reverse := by
        rcases List.eq_nil_or_concat rest with rfl | ⟨way, name, rfl⟩
        · rfl
        · rw [List.concat_eq_append, List.reverse_append]
          exact List.dropWhile_cons_of_neg (by simp [solid name])
      have stripped : (rest ++ [last]).reverse.dropWhile isFiller = last :: rest.reverse := by
        rw [List.reverse_append]
        exact List.dropWhile_cons_of_neg (by simp [solid last])
      rw [parent?_of_stripped pieces stripped, kept, List.reverse_reverse, if_neg (by simp [some])]

theorem join_shorter (base : Path) {upper child : Path} (relative : child.isAbsolute = false)
    (shorter : upper <+: child) : base.join upper <+: base.join child := by
  have relativeToo : upper.isAbsolute = false := by
    obtain ⟨rest, rfl⟩ := shorter
    cases upper with
    | nil => rfl
    | cons byte more => simpa [isAbsolute] using relative
  unfold join
  simp only [relative, relativeToo, Bool.false_eq_true, ↓reduceIte]
  split
  · simpa using shorter
  · simpa using shorter

theorem join_ne_nil (base : Path) {child : Path} (some : child ≠ []) : base.join child ≠ [] := by
  unfold join
  split
  · exact some
  · split <;> simp [some]

theorem endsInSeparator_join_name (base : Path) {name : Name} (plain : Plain name) :
    (base.join name).endsInSeparator = false := by
  have ends : ∀ front : Path, (front ++ name).endsInSeparator = false := by
    intro front
    obtain ⟨way, last, rfl⟩ := (List.eq_nil_or_concat name).resolve_left plain.1
    have other : last ≠ separator := fun same => plain.2.2.2 (by simp [same])
    simp [endsInSeparator, ← List.append_assoc, other]
  unfold join
  simp only [isAbsolute_name plain, Bool.false_eq_true, ↓reduceIte]
  split
  · exact ends base
  · simpa using ends (base ++ [separator])

theorem join_join_glue (base : Path) {name : Name} {below : List Name} (named : Plain name)
    (plain : ∀ other ∈ below, Plain other) (some : below ≠ []) :
    (base.join name).join (glue below) = base.join (glue (name :: below)) := by
  have all : ∀ other ∈ name :: below, Plain other := List.forall_mem_cons.mpr ⟨named, plain⟩
  have bytes : glue (name :: below) = name ++ separator :: glue below :=
    glue_append [name] below (by simp) some
  have nonempty := join_ne_nil base named.1
  have inner : (base.join name).join (glue below) = base.join name ++ separator :: glue below := by
    rw [join, isAbsolute_glue below plain, endsInSeparator_join_name base named]
    simp [nonempty]
  rw [inner, join, join, isAbsolute_name named, isAbsolute_glue _ all, bytes]
  simp only [Bool.false_eq_true, ↓reduceIte]
  split <;> simp

theorem spells_join_name (base : Path) {name : Name} (plain : Plain name) :
    (base.join name).Spells base [name] :=
  spells_join base (List.cons_ne_nil name []) (by simpa using plain)

theorem Spells.trans {base middle path : Path} {above below : List Name}
    (first : middle.Spells base above) (second : path.Spells middle below) :
    path.Spells base (above ++ below) where
  absolute := second.absolute.trans first.absolute
  names := by rw [second.names, first.names, List.append_assoc]
  ends := second.ends

end ArchiveTraversal.Path
