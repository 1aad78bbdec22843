import ArchiveTraversal.Proofs.Decoder.Data
import ArchiveTraversal.Safety

/-!
What an archive asks to be placed below a directory, and what stands there after all of it has
been placed in order. A directory is never given up, so the directories are those that anything
asks for; where there is none, the last file written stays.
-/

namespace ArchiveTraversal

/-- What stands below a directory, by the names that lead there. -/
abbrev View := Location → Option Shape

/-- The names of a member below the output directory, and its content unless it is a directory. -/
structure Placement where
  names : List Name
  content : Option Bytes

namespace Decoder

structure Member where
  info : MemberInfo
  data : List DataItem

def members : List HeaderItem → List Member
  | [] => []
  | item :: rest =>
      if item.reply.code = 1 then []
      else match item.header with
        | some header => ⟨header.info, item.data⟩ :: members rest
        | none => members rest

/-- Where a member goes and what is in it, if its name and kind are accepted. -/
def Member.placement? (capacity : Nat) (member : Member) : Option Placement :=
  match Safety.destination member.info with
  | .error _ => none
  | .ok relative =>
      some ⟨relative.names,
        if member.info.isDirectory then none else some (served capacity member.data)⟩

def Script.placements (capacity : Nat) (script : Script) : List Placement :=
  (members script.headers).filterMap (Member.placement? capacity)

end Decoder

def Placement.Demands (placement : Placement) (names : List Name) : Prop :=
  names <+: placement.names ∧ names ≠ placement.names ∨
    names = placement.names ∧ placement.content = none

instance (placement : Placement) (names : List Name) : Decidable (placement.Demands names) :=
  inferInstanceAs (Decidable (_ ∨ _))

def lastContent? (placements : List Placement) (names : List Name) : Option Bytes :=
  (placements.filterMap fun placement =>
    if placement.names = names then placement.content else none).getLast?

/-- A member gives way to a directory at its own place, and to nothing on its way. -/
def Placement.onto (placement : Placement) (view : View) : View := fun names =>
  if names = placement.names then
    match placement.content with
    | none => some .directory
    | some content => if view names = some .directory then some .directory else some (.file content)
  else if names <+: placement.names then some .directory
  else view names

theorem Placement.onto_of_directory {view : View} (root : view [] = some .directory)
    (names below : List Name) :
    Placement.onto ⟨names, none⟩ view below =
      if below ≠ [] ∧ below <+: names then some .directory else view below := by
  unfold onto
  cases below with
  | nil => simp [root]
  | cons name rest =>
      by_cases here : name :: rest = names
      · subst here
        simp
      · simp [here]

theorem Placement.onto_of_file {view : View} (root : view [] = some .directory)
    (above : List Name) (last : Name) (content : Bytes) (below : List Name) :
    Placement.onto ⟨above ++ [last], some content⟩ view below =
      if below = above ++ [last] then
        if view below = some .directory then some .directory else some (.file content)
      else if below ≠ [] ∧ below <+: above then some .directory
      else view below := by
  unfold onto
  by_cases here : below = above ++ [last]
  · simp [here]
  · have upper : below <+: above ++ [last] ↔ below <+: above := by
      rw [List.prefix_concat_iff]
      simp [here]
    simp only [here, ↓reduceIte, upper]
    cases below with
    | nil => simp [root]
    | cons name rest => simp

def placeAll (placements : List Placement) (view : View) : View :=
  placements.foldl (fun view placement => placement.onto view) view

theorem Placement.onto_directory_iff (placement : Placement) (view : View) (names : List Name) :
    placement.onto view names = some .directory ↔
      view names = some .directory ∨ placement.Demands names := by
  unfold onto Demands
  by_cases here : names = placement.names
  · subst here
    cases content : placement.content with
    | none => simp
    | some bytes =>
        simp only [↓reduceIte]
        split
        · rename_i directory
          simp [directory]
        · rename_i other
          simp [other]
  · by_cases above : names <+: placement.names
    · simp [here, above]
    · simp [here, above]

theorem placeAll_directory_iff (placements : List Placement) (view : View) (names : List Name) :
    placeAll placements view names = some .directory ↔
      view names = some .directory ∨ ∃ placement ∈ placements, placement.Demands names := by
  induction placements generalizing view with
  | nil => simp [placeAll]
  | cons placement rest ih =>
      change placeAll rest (placement.onto view) names = some .directory ↔ _
      rw [ih, placement.onto_directory_iff]
      simp only [List.mem_cons, exists_eq_or_imp, or_assoc]

theorem lastContent?_cons (placement : Placement) (rest : List Placement) (names : List Name) :
    lastContent? (placement :: rest) names =
      (lastContent? rest names).or (if placement.names = names then placement.content else none) := by
  unfold lastContent?
  rw [List.filterMap_cons]
  cases own : if placement.names = names then placement.content else none with
  | none => simp
  | some content =>
      simp only
      rw [List.getLast?_cons]
      cases (rest.filterMap fun placement =>
        if placement.names = names then placement.content else none).getLast? <;> rfl

theorem Placement.onto_eq_of_not_directory {placement : Placement} {view : View}
    {names : List Name} (other : placement.onto view names ≠ some .directory) :
    placement.onto view names =
      match (if placement.names = names then placement.content else none) with
      | some content => some (.file content)
      | none => view names := by
  unfold onto at other ⊢
  by_cases here : names = placement.names
  · subst here
    simp only [↓reduceIte] at other ⊢
    cases content : placement.content with
    | none => simp [content] at other
    | some bytes =>
        simp only [content] at other ⊢
        split
        · rename_i directory
          simp [directory] at other
        · rfl
  · simp only [here, ↓reduceIte, Ne.symm here] at other ⊢
    split
    · rename_i above
      simp [above] at other
    · rfl

theorem placeAll_eq_of_not_directory {placements : List Placement} {view : View}
    {names : List Name} (other : placeAll placements view names ≠ some .directory) :
    placeAll placements view names =
      match lastContent? placements names with
      | some content => some (.file content)
      | none => view names := by
  induction placements generalizing view with
  | nil => rfl
  | cons placement rest ih =>
      change placeAll rest (placement.onto view) names ≠ some .directory at other
      change placeAll rest (placement.onto view) names = _
      have first : placement.onto view names ≠ some .directory := by
        intro directory
        exact other ((placeAll_directory_iff rest _ names).mpr (.inl directory))
      rw [ih other, lastContent?_cons, placement.onto_eq_of_not_directory first]
      cases lastContent? rest names <;> rfl

/-- What has been placed is all there when it is placed once more. -/
theorem placeAll_again (placements : List Placement) (view : View) :
    placeAll placements (placeAll placements view) = placeAll placements view := by
  funext names
  have directories := placeAll_directory_iff placements view names
  have again := placeAll_directory_iff placements (placeAll placements view) names
  by_cases is : placeAll placements view names = some .directory
  · rw [is, again]
    exact .inl is
  · have other : placeAll placements (placeAll placements view) names ≠ some .directory := by
      rw [ne_eq, again, directories]
      rw [directories] at is
      rintro (stood | asked)
      · exact is stood
      · exact is (.inr asked)
    rw [placeAll_eq_of_not_directory other, placeAll_eq_of_not_directory is]
    cases lastContent? placements names <;> rfl

end ArchiveTraversal
