import ArchiveTraversal.Proofs.FileTree.Removal

/-!
What is read back from a file that has been created and filled through a path. The path leads there
again, through the same directories and along the same links, and there it finds the content.
-/

namespace ArchiveTraversal.FileTree

theorem Keeps.trans {before between after : FileTree} (first : Keeps before between)
    (second : Keeps between after) : Keeps before after :=
  ⟨second.workingDirectory.trans first.workingDirectory,
    fun location stands => second.directory location (first.directory location stands),
    fun location target stands => second.link location target (first.link location target stands)⟩

/-- Where a walk has led to what is no directory, a later one leads as well, whatever is there by
then, unless it is a link. The way has been kept. -/
theorem walk_keeps {before after : FileTree} (keeps : Keeps before after)
    {purpose laterPurpose : Purpose} (follows : purpose ≠ .takeLink)
    (followsLater : laterPurpose ≠ .takeLink) (lenient : laterPurpose = .create → purpose = .create)
    {links : Nat} {standing later : Standing} {names : List Name} {insists : Bool} {place : Place}
    (stands : standing.Stands before) (standsLater : later.Stands after)
    (same : later.location = standing.location)
    (gets : walk before purpose links standing names insists = .ok place)
    (leaf : ∀ entries, place.node ≠ some (.directory entries))
    (noLink : ∀ target, after.at? place.location ≠ some (.link target)) :
    walk after laterPurpose links later names insists =
        .ok ⟨place.location, after.find? place.location, place.insistsOnDirectory⟩ ∧
      (purpose = .create → place.insistsOnDirectory = false) := by
  -- As in the walk itself: on the links left, with the last name apart from those before it.
  induction links using Nat.strongRecOn generalizing standing later names insists with
  | ind links fewer =>
      rcases List.eq_nil_or_concat names with none | ⟨way, last, ends⟩
      · subst none
        rw [walk_nil] at gets
        cases gets
        exact absurd rfl (leaf _)
      rw [List.concat_eq_append] at ends
      subst ends
      obtain ⟨left, between, leads⟩ := leads_of_walk (by simp) gets
      obtain ⟨betweenLater, leadsLater, there⟩ :=
        leads.spares keeps.spares stands standsLater same
      have standsBetween := leads.stands stands
      have standsThere := leadsLater.stands standsLater
      rw [leads.walk_append (by simp)] at gets
      rw [leadsLater.walk_append (by simp)]
      by_cases isHere : last = Path.here
      · rw [isHere, walk_here, walk_nil] at gets
        cases gets
        exact absurd rfl (leaf _)
      by_cases isUp : last = Path.up
      · rw [isUp, walk_up, walk_nil] at gets
        cases gets
        exact absurd rfl (leaf _)
      rw [walk_name _ _ _ isHere isUp] at gets
      have long : ¬ last.length > longestName := by
        intro long
        simp only [long, ↓reduceIte] at gets
        split at gets <;> cases gets
      have allowed : purpose = .create → insists = false := by
        intro creates
        cases insists with
        | false => rfl
        | true => simp [creates] at gets
      have allowedLater : ¬ (laterPurpose = .create ∧ insists = true) := by
        rintro ⟨creates, insisting⟩
        cases (allowed (lenient creates)).symm.trans insisting
      have allowedNow : ¬ (purpose = .create ∧ insists = true) := by
        rintro ⟨creates, insisting⟩
        cases (allowed creates).symm.trans insisting
      simp only [true_and, allowedNow, follows, false_and, long, ↓reduceIte] at gets
      -- What is at the last name by now, if that is where the walk has led.
      have arrived : ∀ node, place = between.place last node insists →
          walk after laterPurpose left betweenLater [last] insists =
              .ok ⟨place.location, after.find? place.location, place.insistsOnDirectory⟩ ∧
            (purpose = .create → place.insistsOnDirectory = false) := by
        rintro node rfl
        refine ⟨?_, allowed⟩
        rw [walk_name _ _ _ isHere isUp]
        simp only [true_and, allowedLater, followsLater, false_and, long, ↓reduceIte]
        have location : (between.place last node insists).location =
            betweenLater.location ++ [last] := by
          rw [there]
          simp [Standing.place, Standing.location]
        rw [location] at noLink ⊢
        have found := standsThere.lookup last
        rw [← found]
        cases stood : betweenLater.entries.lookup last with
        | none => simp [Standing.place, Standing.location]
        | some node =>
            cases node with
            | file content => simp [Standing.place, Standing.location]
            | directory entries =>
                simp [walk_nil, Standing.place, Standing.enter, Standing.location]
            | link target =>
                rw [stood] at found
                exact absurd (at?_eq_link_iff.mpr found.symm) (noLink target)
      cases found : between.entries.lookup last with
      | none =>
          simp only [found] at gets
          exact arrived none (Except.ok.inj gets).symm
      | some node =>
          cases node with
          | file old =>
              simp only [found] at gets
              exact arrived (some (.file old)) (Except.ok.inj gets).symm
          | directory entries =>
              simp only [found, walk_nil] at gets
              cases gets
              exact absurd rfl (leaf _)
          | link target =>
              simp only [found] at gets
              have link : betweenLater.entries.lookup last = some (.link target) := by
                rw [standsThere.lookup, there, ← at?_eq_link_iff]
                apply keeps.link
                rw [at?_eq_link_iff, ← standsBetween.lookup, found]
              rw [walk_name _ _ _ isHere isUp]
              simp only [true_and, allowedLater, followsLater, false_and, long, ↓reduceIte, link]
              cases left with
              | zero => cases gets
              | succ prior =>
                  rw [onward] at gets ⊢
                  apply fewer prior (Nat.lt_of_succ_le leads.left_le) _ _ _ gets
                  · split
                    · exact Standing.stands_atRoot before
                    · exact standsBetween
                  · split
                    · exact Standing.stands_atRoot after
                    · exact standsThere
                  · split
                    · rfl
                    · exact there

theorem follow_keeps {before after : FileTree} (keeps : Keeps before after) {purpose : Purpose}
    (laterPurpose : Purpose) (follows : purpose ≠ .takeLink)
    (followsLater : laterPurpose ≠ .takeLink)
    (lenient : laterPurpose = .create → purpose = .create)
    {path : Path} {insists : Bool} {place : Place}
    (gets : before.follow purpose insists path = .ok place)
    (leaf : ∀ entries, place.node ≠ some (.directory entries))
    (noLink : ∀ target, after.at? place.location ≠ some (.link target)) :
    after.follow laterPurpose insists path =
        .ok ⟨place.location, after.find? place.location, place.insistsOnDirectory⟩ ∧
      (purpose = .create → place.insistsOnDirectory = false) := by
  unfold follow at gets ⊢
  split at gets
  · cases gets
  rename_i standing starts
  obtain ⟨later, startsLater, same⟩ := Standing.start_spares keeps.spares starts
  rw [startsLater]
  exact walk_keeps keeps follows followsLater lenient (Standing.stands_start starts)
    (Standing.stands_start startsLater) same gets leaf noLink

theorem metadata_of_filled {tree opened : FileTree} {path : Path} {location : Location}
    (created : tree.createFile path = .ok (location, opened)) (content : Bytes) :
    (opened.put location (.file content)).metadata path = .ok (.file content) := by
  have keeps := (createFile_keeps created).trans (fill_keeps created content)
  unfold createFile at created
  split at created
  · cases created
  · cases created
  rename_i place node insisted leaf looked
  cases created
  obtain ⟨accepted, gets⟩ := lookup_ok looked
  have vacant := (vacant_of_follow gets leaf).1
  have written := (vacant.put_file []).at?_put_file content location
  rw [if_pos rfl] at written
  obtain ⟨found, lenient⟩ :=
    follow_keeps keeps .inspect (by simp) (by simp) (by simp) gets leaf (by simp [written])
  have stands := at?_eq_file_iff.mp written
  dsimp only at lenient found
  rw [lenient rfl, stands] at found
  simp only [metadata, lookup, accepted, found]
  rfl

end ArchiveTraversal.FileTree
