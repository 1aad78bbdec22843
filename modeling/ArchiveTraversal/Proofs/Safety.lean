import ArchiveTraversal.Proofs.Path.Components

/-!
Which member names are accepted, and what becomes of them. An accepted path is its own names glued
together again, at least one of them, and none that a lookup would take for anything but a name. It
is refused otherwise: for its root, for a step up, or for having no name at all.
-/

namespace ArchiveTraversal.Safety

theorem whole_of_names {path : Path} :
    ∀ name ∈ path.names, name ≠ [] ∧ name ≠ Path.here ∧ Path.separator ∉ name := by
  intro name member
  have kept := List.mem_filter.mp member
  simp only [decide_eq_true_eq] at kept
  exact ⟨kept.2.1, kept.2.2, Path.separator_not_mem_split kept.1⟩

theorem plain_of_names {path : Path} (level : Path.up ∉ path.names) :
    ∀ name ∈ path.names, Path.Plain name := by
  intro name member
  obtain ⟨some, moves, whole⟩ := whole_of_names name member
  refine ⟨some, moves, ?_, whole⟩
  rintro rfl
  exact level member

theorem normalize_names (path : Path) {built names : List Name}
    (plain : ∀ name ∈ built, Path.Plain name)
    (whole : ∀ name ∈ names, name ≠ [] ∧ name ≠ Path.here ∧ Path.separator ∉ name) :
    normalize path (Path.glue built) (names.map Path.Component.ofName) =
      if Path.up ∈ names then
        .error (.pathTraversal ("Path contains '..' component: " ++ path.display))
      else .ok (Path.glue (built ++ names)) := by
  induction names generalizing built with
  | nil => simp [normalize]
  | cons name rest ih =>
      by_cases climbs : name = Path.up
      · subst climbs
        simp [Path.Component.ofName, normalize]
      · obtain ⟨some, moves, single⟩ := whole name List.mem_cons_self
        have named : Path.Plain name := ⟨some, moves, climbs, single⟩
        have longer : ∀ part ∈ built ++ [name], Path.Plain part := by
          intro part member
          rcases List.mem_append.mp member with before | last
          · exact plain part before
          · rwa [List.mem_singleton.mp last]
        have onward := ih longer fun other member => whole other (List.mem_cons_of_mem _ member)
        rw [List.map_cons, Path.ofName_of_plain named, normalize, Path.join_glue plain named, onward,
          List.append_assoc, List.singleton_append]
        simp only [List.mem_cons, Ne.symm climbs, false_or]

theorem normalize_components {path : Path} (relative : path.isAbsolute = false) :
    normalize path [] path.components =
      normalize path [] (path.names.map Path.Component.ofName) := by
  rw [Path.components_eq]
  unfold Path.lead
  rw [relative]
  split
  · contradiction
  · split <;> rfl

/-- A path is taken apart into its names, and these decide. -/
theorem memberPath_eq (path : Path) :
    memberPath path =
      if path.isAbsolute then .error (.absolutePath path.display)
      else if Path.up ∈ path.names then
        .error (.pathTraversal ("Path contains '..' component: " ++ path.display))
      else if path.names = [] then .error (.pathTraversal "Path normalizes to empty")
      else .ok (Path.glue path.names) := by
  unfold memberPath
  cases relative : path.isAbsolute with
  | true => rfl
  | false =>
      have built := @normalize_names path [] path.names (by simp) whole_of_names
      rw [Path.glue, List.nil_append] at built
      rw [normalize_components relative, built]
      by_cases climbs : Path.up ∈ path.names
      · simp only [Bool.false_eq_true, climbs, ↓reduceIte]
      · simp only [Bool.false_eq_true, climbs, ↓reduceIte, Path.glue_eq_nil (plain_of_names climbs)]

theorem memberPath_ok {path relative : Path} (accepted : memberPath path = .ok relative) :
    path.names ≠ [] ∧ (∀ name ∈ path.names, Path.Plain name) ∧
      relative = Path.glue path.names := by
  rw [memberPath_eq] at accepted
  split at accepted
  · cases accepted
  · split at accepted
    · cases accepted
    · rename_i level
      split at accepted
      · cases accepted
      · rename_i nonempty
        cases accepted
        exact ⟨nonempty, plain_of_names level, rfl⟩

theorem checkKind_ok {name : String} {kind : MemberKind} (accepted : checkKind name kind = .ok ()) :
    kind = .file ∨ kind = .directory := by
  cases kind with
  | file => exact .inl rfl
  | directory => exact .inr rfl
  | symlink => cases accepted
  | other => cases accepted

theorem destination_ok {info : MemberInfo} {relative : Path}
    (accepted : destination info = .ok relative) :
    relative.names ≠ [] ∧ (∀ name ∈ relative.names, Path.Plain name) ∧
      relative = Path.glue relative.names ∧ (info.kind = .file ∨ info.kind = .directory) := by
  unfold destination at accepted
  split at accepted
  · cases accepted
  · rename_i valid
    obtain ⟨nonempty, plain, glued⟩ := memberPath_ok valid
    split at accepted
    · cases accepted
    · rename_i kind
      cases accepted
      have same := Path.names_glue _ plain
      rw [← glued] at same
      exact ⟨same ▸ nonempty, same ▸ plain, by rw [same]; exact glued, checkKind_ok kind⟩

theorem spells_destination {info : MemberInfo} {relative : Path}
    (accepted : destination info = .ok relative) (output : Path) :
    (output.join relative).Spells output relative.names := by
  obtain ⟨nonempty, plain, glued, _⟩ := destination_ok accepted
  have spells := Path.spells_join output nonempty plain
  rwa [← glued] at spells

/-- What is accepted is safe to be put below a directory, and stays as it is from then on. -/
theorem normal_of_accepted {path accepted : Path} (valid : memberPath path = .ok accepted) :
    accepted.isAbsolute = false ∧ accepted ≠ [] ∧ Path.split accepted = path.names ∧
      accepted.names = path.names ∧ memberPath accepted = .ok accepted := by
  obtain ⟨nonempty, plain, rfl⟩ := memberPath_ok valid
  have relative := Path.isAbsolute_glue path.names plain
  have names := Path.names_glue path.names plain
  have level : Path.up ∉ path.names := fun climbs => (plain Path.up climbs).2.2.1 rfl
  refine ⟨relative, ?_, ?_, names, ?_⟩
  · simpa [Path.glue_eq_nil plain] using nonempty
  · exact Path.split_glue path.names nonempty fun name member => (plain name member).2.2.2
  · simp only [memberPath_eq, names, relative, level, nonempty, Bool.false_eq_true, ↓reduceIte]

/-- A member's path is refused as absolute if it begins with a separator, and as climbing if one of
its names does, or if it has none; the others are accepted, all of them, with their names glued
together. So what is accepted is relative, has nothing but names in it, and is accepted again as it
is; the names alone decide what a path is accepted as; and below any directory an accepted path goes
down by its names. -/
theorem memberPath_exact (path : Path) :
    ((∃ account, memberPath path = .error (.absolutePath account)) ↔
      path.head? = some Path.separator) ∧
    ((∃ account, memberPath path = .error (.pathTraversal account)) ↔
      path.head? ≠ some Path.separator ∧ (path.names = [] ∨ Path.up ∈ path.names)) ∧
    (∀ accepted, memberPath path = .ok accepted ↔
      path.head? ≠ some Path.separator ∧ path.names ≠ [] ∧ Path.up ∉ path.names ∧
        accepted = Path.glue path.names) ∧
    ∀ accepted, memberPath path = .ok accepted →
      accepted.isAbsolute = false ∧ accepted ≠ [] ∧
      (∀ segment ∈ Path.split accepted,
        segment ≠ [] ∧ segment ≠ Path.here ∧ segment ≠ Path.up) ∧
      memberPath accepted = .ok accepted ∧
      (∀ other normal, memberPath other = .ok normal →
        (normal = accepted ↔ other.names = path.names)) ∧
      ∀ directory : Path,
        (directory.join accepted).components = directory.components ++ path.names.map .name := by
  have decides := memberPath_eq path
  have absolute : path.isAbsolute = true ↔ path.head? = some Path.separator := by
    simp [Path.isAbsolute]
  refine ⟨?_, ?_, ?_, ?_⟩
  · rw [decides, ← absolute]
    grind
  · rw [decides, Ne, ← absolute]
    grind
  · intro accepted
    rw [decides, Ne, ← absolute]
    grind
  · intro accepted valid
    obtain ⟨nonempty, plain, glued⟩ := memberPath_ok valid
    obtain ⟨relative, some, pieces, names, again⟩ := normal_of_accepted valid
    refine ⟨relative, some, ?_, again, ?_, ?_⟩
    · intro segment member
      rw [pieces] at member
      obtain ⟨full, moves, level, -⟩ := plain segment member
      exact ⟨full, moves, level⟩
    · intro other normal validToo
      obtain ⟨-, -, -, otherNames, -⟩ := normal_of_accepted validToo
      constructor
      · rintro rfl
        rw [← otherNames, names]
      · intro same
        rw [(memberPath_ok validToo).2.2, glued, same]
    · intro directory
      rw [glued]
      exact Path.components_join_glue directory plain

/-- Below `./d`, the member `./a//b/.` goes to `./d/a/b`. -/
theorem scattered_names_accepted :
    let member : Path := [0x2E, 0x2F, 0x61, 0x2F, 0x2F, 0x62, 0x2F, 0x2E]
    let accepted : Path := [0x61, 0x2F, 0x62]
    let directory : Path := [0x2E, 0x2F, 0x64]
    memberPath member = .ok accepted ∧ memberPath accepted = .ok accepted ∧
      (directory.join accepted).components = [.here, .name [0x64], .name [0x61], .name [0x62]] := by
  intro member accepted directory
  have valid : memberPath member = .ok accepted := rfl
  obtain ⟨-, -, -, consequences⟩ := memberPath_exact member
  obtain ⟨-, -, -, again, -, below⟩ := consequences accepted valid
  refine ⟨valid, again, (below directory).trans ?_⟩
  decide

end ArchiveTraversal.Safety
