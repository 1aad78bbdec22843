import ArchiveTraversal.Proofs.Path

/-!
The steps of a path. All but what a path may begin with, the root or the current directory, are its
names in order. So a path that is put below another one adds its names to the other's steps.
-/

namespace ArchiveTraversal.Path

def Component.ofName (name : Name) : Component := if name = Path.up then .up else .name name

def lead (path : Path) : List Component :=
  if path.isAbsolute then [.root]
  else if (split path).head? = some here then [.here]
  else []

theorem ofName_of_plain {name : Name} (plain : Plain name) :
    Component.ofName name = .name name := if_neg plain.2.2.1

theorem map_ofName (parts : List Name) (plain : ∀ name ∈ parts, Plain name) :
    parts.map Component.ofName = parts.map .name :=
  List.map_congr_left fun name member => ofName_of_plain (plain name member)

theorem ofPiece?_of_filler {piece : Name} (filler : isFiller piece = true) :
    Component.ofPiece? piece = none := if_pos filler

theorem ofPiece?_of_solid {piece : Name} (solid : isFiller piece = false) :
    Component.ofPiece? piece = some (.ofName piece) := by
  simp only [Component.ofPiece?, Component.ofName, solid, Bool.false_eq_true, ↓reduceIte]
  split <;> rfl

theorem filterMap_ofPiece? (pieces : List Name) :
    pieces.filterMap Component.ofPiece? = (namesAmong pieces).map Component.ofName := by
  induction pieces with
  | nil => rfl
  | cons piece rest ih =>
      cases filler : isFiller piece with
      | true =>
          rw [List.filterMap_cons_none (ofPiece?_of_filler filler), ih, namesAmong_of_filler filler]
      | false =>
          rw [List.filterMap_cons_some (ofPiece?_of_solid filler), ih, namesAmong_of_solid filler,
            List.map_cons]

/-- The steps of a path are its names, after what it begins with. -/
theorem components_eq (path : Path) :
    path.components = path.lead ++ path.names.map Component.ofName := by
  have absolute := isAbsolute_eq path
  rw [← namesAmong_split]
  unfold components lead
  cases pieces : split path with
  | nil => exact absurd pieces (split_ne_nil path)
  | cons first others =>
      simp only [pieces, List.cons.injEq] at absolute
      dsimp only
      rw [filterMap_ofPiece?, List.head?_cons]
      by_cases empty : first = []
      · subst empty
        rw [namesAmong_of_filler (by simp [isFiller])]
        by_cases alone : others = []
        · have relative : path.isAbsolute = false := by
            simpa [alone] using absolute
          simp [Component.ofFirst?, Component.ofPiece?, isFiller, alone, relative, here]
        · have root : path.isAbsolute = true := absolute.mpr ⟨others, alone, rfl, rfl⟩
          simp [Component.ofFirst?, alone, root]
      · have relative : path.isAbsolute = false := by
          simpa [empty] using absolute
        by_cases stays : first = here
        · subst stays
          rw [namesAmong_of_filler (by simp [isFiller])]
          simp [Component.ofFirst?, here, relative]
        · have solid : isFiller first = false := by simp [isFiller, empty, stays]
          rw [namesAmong_of_solid solid]
          simp [Component.ofFirst?, empty, stays, relative, ofPiece?_of_solid solid]

theorem head?_split_append (base child : Path) :
    (split (base ++ separator :: child)).head? = (split base).head? := by
  rw [split_append]
  cases pieces : split base with
  | nil => exact absurd pieces (split_ne_nil base)
  | cons first others => rfl

/-- What is put below a path does not change how it begins, unless it is put below nothing. -/
theorem lead_join {base child : Path} (some : base ≠ []) (relative : child.isAbsolute = false) :
    (base.join child).lead = base.lead := by
  have begins : (split (base.join child)).head? = (split base).head? := by
    unfold join
    simp only [relative, Bool.false_eq_true, ↓reduceIte]
    split
    · rename_i ends
      have ends := ends.resolve_left some
      simp only [endsInSeparator, decide_eq_true_eq] at ends
      obtain ⟨shorter, rfl⟩ := List.getLast?_eq_some_iff.mp ends
      rw [List.append_assoc, List.singleton_append, head?_split_append, head?_split_append]
    · exact head?_split_append base child
  unfold lead
  rw [isAbsolute_join _ _ relative, begins]

theorem lead_glue (parts : List Name) (plain : ∀ name ∈ parts, Plain name) :
    lead (glue parts) = [] := by
  unfold lead
  rw [isAbsolute_glue parts plain]
  cases parts with
  | nil => simp [glue, split, here]
  | cons name rest =>
      rw [split_glue _ (by simp) fun other member => (plain other member).2.2.2]
      have first := plain name List.mem_cons_self
      simp [first.2.1]

theorem components_glue (parts : List Name) (plain : ∀ name ∈ parts, Plain name) :
    components (glue parts) = parts.map .name := by
  rw [components_eq, lead_glue parts plain, names_glue parts plain, map_ofName parts plain,
    List.nil_append]

theorem components_join_glue (directory : Path) {parts : List Name}
    (plain : ∀ name ∈ parts, Plain name) :
    (directory.join (glue parts)).components = directory.components ++ parts.map .name := by
  have relative := isAbsolute_glue parts plain
  by_cases nowhere : directory = []
  · subst nowhere
    have alone : join [] (glue parts) = glue parts := by simp [join, relative]
    rw [alone, components_glue parts plain]
    rfl
  · rw [components_eq, lead_join nowhere relative, names_join _ _ relative, List.map_append,
      names_glue parts plain, map_ofName parts plain, ← List.append_assoc, ← components_eq]

theorem glue_eq_nil {parts : List Name} (plain : ∀ name ∈ parts, Plain name) :
    glue parts = [] ↔ parts = [] := by
  constructor
  · intro empty
    have none := names_glue parts plain
    rw [empty] at none
    simpa [names, split] using none.symm
  · rintro rfl
    rfl

theorem join_glue {parts : List Name} {name : Name} (plain : ∀ part ∈ parts, Plain part)
    (named : Plain name) : join (glue parts) name = glue (parts ++ [name]) := by
  have relative := isAbsolute_name named
  rcases parts with _ | ⟨first, rest⟩
  · simp [join, glue, relative]
  · have whole := split_glue (first :: rest) (by simp) fun part member => (plain part member).2.2.2
    have some : glue (first :: rest) ≠ [] := by simp [glue_eq_nil plain]
    have bare : endsInSeparator (glue (first :: rest)) = false := by
      apply Bool.eq_false_iff.mpr
      intro ends
      simp only [endsInSeparator, decide_eq_true_eq] at ends
      obtain ⟨shorter, same⟩ := List.getLast?_eq_some_iff.mp ends
      rw [same, split_append] at whole
      have empty : [] ∈ first :: rest := by simp [← whole, split]
      exact (plain [] empty).1 rfl
    rw [glue_append _ _ (by simp) (by simp)]
    simp [join, relative, some, bare, glue]

end ArchiveTraversal.Path
