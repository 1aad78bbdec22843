import ArchiveTraversal.FileTree.Basic

/-!
The view of a tree under its changes. Putting a node changes what stands at its location and
below it and nothing else; removing one leaves nothing there. The directory that holds the node
must exist, and is still a directory afterwards.
-/

namespace ArchiveTraversal

namespace Entries

theorem lookup_set (entries : Entries) (name other : Name) (node : Node) :
    (entries.set name node).lookup other =
      if other = name then some node else entries.lookup other := by
  induction entries with
  | nil =>
      by_cases same : other = name
      · subst same
        simp [set]
      · have apart : (other == name) = false := by simpa using same
        simp [set, List.lookup_cons, same, apart]
  | cons head rest ih =>
      obtain ⟨first, old⟩ := head
      by_cases here : first = name
      · subst here
        by_cases same : other = first
        · subst same
          simp [set]
        · have apart : (other == first) = false := by simpa using same
          simp [set, List.lookup_cons, same, apart]
      · by_cases same : other = first
        · subst same
          simp [set, here]
        · have apart : (other == first) = false := by simpa using same
          simp [set, here, List.lookup_cons, apart, ih]

theorem lookup_unset (entries : Entries) (name other : Name) :
    (entries.unset name).lookup other =
      if other = name then none else entries.lookup other := by
  induction entries with
  | nil => simp [unset]
  | cons head rest ih =>
      obtain ⟨first, old⟩ := head
      by_cases here : first = name
      · subst here
        by_cases same : other = first
        · subst same
          simpa [unset] using ih
        · have apart : (other == first) = false := by simpa using same
          simp [unset, List.lookup_cons, apart, ih, same]
      · by_cases same : other = first
        · subst same
          simp [unset, here]
        · have apart : (other == first) = false := by simpa using same
          simp [unset, here, List.lookup_cons, apart, ih]

end Entries

namespace Node

def HasRoom (node : Node) (location : Location) : Prop :=
  ∃ entries, node.find? location.dropLast = some (.directory entries)

theorem shape_put (node : Node) (name : Name) (below : Location) (new : Node) :
    (node.put (name :: below) new).shape = node.shape := by
  cases node with
  | file content => rfl
  | link target => rfl
  | directory entries =>
      simp only [put]
      split
      · rfl
      · split <;> rfl

theorem find?_put (node : Node) (location other : Location) (new : Node)
    (room : location ≠ [] → node.HasRoom location) :
    ((node.put location new).find? other).map shape =
      if location <+: other then (new.find? (other.drop location.length)).map shape
      else (node.find? other).map shape := by
  induction location generalizing node other with
  | nil => simp [put]
  | cons name below ih =>
      obtain ⟨entries, stands⟩ := room (by simp)
      cases other with
      | nil => simp [find?, shape_put]
      | cons first rest =>
          cases node with
          -- A leaf has no room below it.
          | file content => cases below <;> simp [List.dropLast, find?] at stands
          | link target => cases below <;> simp [List.dropLast, find?] at stands
          | directory inner =>
              cases found : inner.lookup name with
              | none =>
                  cases below with
                  | nil =>
                      simp only [put, found, ↓reduceIte, find?, Entries.lookup_set]
                      by_cases same : first = name
                      · subst same
                        simp
                      · simp [same, Ne.symm same]
                  | cons next deeper => simp [List.dropLast, find?, found] at stands
              | some child =>
                  have deeperRoom : below ≠ [] → child.HasRoom below := by
                    intro more
                    cases below with
                    | nil => exact absurd rfl more
                    | cons next deeper =>
                        simp only [List.dropLast, find?, found] at stands
                        exact ⟨entries, stands⟩
                  simp only [put, found, find?, Entries.lookup_set]
                  by_cases same : first = name
                  · subst same
                    simp [ih child rest deeperRoom, found]
                  · simp [same, Ne.symm same]

theorem find?_remove (node : Node) (location other : Location) (proper : location ≠ []) :
    ((node.remove location).find? other).map shape =
      if location <+: other then none else (node.find? other).map shape := by
  induction location generalizing node other with
  | nil => exact absurd rfl proper
  | cons name below ih =>
      cases node with
      | file content => cases other <;> simp [remove, find?]
      | link target => cases other <;> simp [remove, find?]
      | directory inner =>
          cases other with
          | nil =>
              cases below with
              | nil => simp [remove, find?, shape]
              | cons next deeper =>
                  simp only [remove]
                  split <;> simp [find?, shape]
          | cons first rest =>
              cases below with
              | nil =>
                  simp only [remove, find?, Entries.lookup_unset]
                  by_cases same : first = name
                  · subst same
                    simp
                  · simp [same, Ne.symm same]
              | cons next deeper =>
                  cases found : inner.lookup name with
                  | none =>
                      by_cases same : first = name
                      · subst same
                        simp [remove, found, find?]
                      · simp [remove, found, find?, Ne.symm same]
                  | some child =>
                      simp only [remove, found, find?, Entries.lookup_set]
                      by_cases same : first = name
                      · subst same
                        simp [ih child rest (by simp), found]
                      · simp [same, Ne.symm same]

end Node

namespace FileTree

theorem root_put (tree : FileTree) (name : Name) (below : Location) (node : Node) :
    (tree.put (name :: below) node).root = tree.root.put (name :: below) node := by
  have same := tree.root.shape_put name below node
  unfold put withRoot
  cases changed : tree.root.put (name :: below) node with
  | file content => rw [changed] at same; exact absurd same (by simp [root, Node.shape])
  | link target => rw [changed] at same; exact absurd same (by simp [root, Node.shape])
  | directory entries => rfl

theorem root_remove (tree : FileTree) (location : Location) :
    (tree.remove location).root = tree.root.remove location := by
  have same : (tree.root.remove location).shape = tree.root.shape := by
    cases location with
    | nil => rfl
    | cons name below =>
        cases below with
        | nil => rfl
        | cons next deeper =>
            simp only [root, Node.remove]
            split <;> rfl
  unfold remove withRoot
  cases changed : tree.root.remove location with
  | file content => rw [changed] at same; exact absurd same (by simp [root, Node.shape])
  | link target => rw [changed] at same; exact absurd same (by simp [root, Node.shape])
  | directory entries => rfl

def HasRoom (tree : FileTree) (location : Location) : Prop := tree.root.HasRoom location

theorem at?_put (tree : FileTree) (location other : Location) (node : Node)
    (proper : location ≠ []) (room : tree.HasRoom location) :
    (tree.put location node).at? other =
      if location <+: other then (node.find? (other.drop location.length)).map Node.shape
      else tree.at? other := by
  cases location with
  | nil => exact absurd rfl proper
  | cons name below =>
      unfold at? find?
      rw [root_put]
      exact tree.root.find?_put _ _ _ fun _ => room

theorem at?_remove (tree : FileTree) (location other : Location) (proper : location ≠ []) :
    (tree.remove location).at? other =
      if location <+: other then none else tree.at? other := by
  unfold at? find?
  rw [root_remove]
  exact tree.root.find?_remove _ _ proper

end FileTree

end ArchiveTraversal
