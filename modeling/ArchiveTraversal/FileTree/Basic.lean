import ArchiveTraversal.Path

/-!
A tree of directories, regular files and symbolic links, changed by nobody else and without hard
links. A location is the list of names that leads to a node from the root; every node on the way
is a directory, because nothing else holds entries. Links are nodes here and are not followed. A
tree has a working directory, where relative paths start; the rest of the tree lies around it.
-/

namespace ArchiveTraversal

inductive Node where
  | file (content : Bytes)
  | link (target : Path)
  | directory (entries : List (Name × Node))

abbrev Entries := List (Name × Node)

abbrev Location := List Name

/-- What a node is, apart from what a directory holds. -/
inductive Shape where
  | file (content : Bytes)
  | link (target : Path)
  | directory
  deriving DecidableEq, Repr

def Node.shape : Node → Shape
  | .file content => .file content
  | .link target => .link target
  | .directory _ => .directory

namespace Entries

/-- An entry that is there keeps its place; a new one goes last. -/
def set : Entries → Name → Node → Entries
  | [], name, node => [(name, node)]
  | (first, old) :: rest, name, node =>
      if first = name then (first, node) :: rest else (first, old) :: set rest name node

def unset : Entries → Name → Entries
  | [], _ => []
  | (first, node) :: rest, name =>
      if first = name then unset rest name else (first, node) :: unset rest name

end Entries

namespace Node

def find? : Node → Location → Option Node
  | node, [] => some node
  | .directory entries, name :: below =>
      match entries.lookup name with
      | some inner => inner.find? below
      | none => none
  | _, _ :: _ => none

/-- Places a node where its directory exists, over whatever stood there. -/
def put : Node → Location → Node → Node
  | _, [], new => new
  | .directory entries, name :: below, new =>
      match entries.lookup name with
      | some inner => .directory (Entries.set entries name (inner.put below new))
      | none =>
          if below = [] then .directory (Entries.set entries name new) else .directory entries
  | node, _ :: _, _ => node

/-- Takes out what stands at a location, with everything below it. The root stays. -/
def remove : Node → Location → Node
  | .directory entries, [name] => .directory (Entries.unset entries name)
  | .directory entries, name :: next :: below =>
      match entries.lookup name with
      | some inner => .directory (Entries.set entries name (inner.remove (next :: below)))
      | none => .directory entries
  | node, _ => node

end Node

/-- The root is a directory, so a tree is given by what the root holds. -/
structure FileTree where
  entries : Entries := []
  workingDirectory : Location := []

namespace FileTree

def around (location : Location) : FileTree :=
  ⟨location.foldr (fun name inner => [(name, .directory inner)]) [], location⟩

def root (tree : FileTree) : Node := .directory tree.entries

def withRoot (tree : FileTree) : Node → FileTree
  | .directory entries => { tree with entries }
  | _ => tree

def find? (tree : FileTree) (location : Location) : Option Node := tree.root.find? location

def at? (tree : FileTree) (location : Location) : Option Shape :=
  (tree.find? location).map Node.shape

def workingEntries (tree : FileTree) : Entries :=
  match tree.find? tree.workingDirectory with
  | some (.directory entries) => entries
  | _ => []

def put (tree : FileTree) (location : Location) (node : Node) : FileTree :=
  tree.withRoot (tree.root.put location node)

def remove (tree : FileTree) (location : Location) : FileTree :=
  tree.withRoot (tree.root.remove location)

end FileTree

mutual

def Node.nodesFrom (above : Location) : Node → List (Location × Shape)
  | .file content => [(above, .file content)]
  | .link target => [(above, .link target)]
  | .directory entries => (above, .directory) :: nodesBelow above entries

def nodesBelow (above : Location) : List (Name × Node) → List (Location × Shape)
  | [] => []
  | (name, node) :: rest => node.nodesFrom (above ++ [name]) ++ nodesBelow above rest

end

def FileTree.listing (tree : FileTree) : List (Path × Shape) :=
  ((nodesBelow [] tree.workingEntries).map fun node => (Path.glue node.1, node.2)).mergeSort
    fun left right => decide (left.1 ≤ right.1)

end ArchiveTraversal
