import ArchiveTraversal.FileTree.Lookup

/-!
Changes to a tree through paths: making directories, removing and creating files. A change that
fails leaves the tree as it was; making a whole path of directories keeps those made before the
failure.
-/

namespace ArchiveTraversal.FileTree

/-- A new directory. A link at its place is in the way, wherever it leads. -/
def makeDirectory (tree : FileTree) (path : Path) : Except IoError FileTree :=
  match tree.lookup .takeLink false path with
  | .error error => .error error
  | .ok ⟨_, some _, _⟩ => .error (.system SystemError.alreadyExists)
  | .ok ⟨location, none, _⟩ => .ok (tree.put location (.directory []))

/-- Makes the first path after the paths that follow it, its parents from the inside out. A path
that is a directory already needs nothing. -/
def makeInside (tree : FileTree) : List Path → Except IoError Unit × FileTree
  | [] => (.ok (), tree)
  | path :: above =>
      match tree.makeDirectory path with
      | .ok made => (.ok (), made)
      | .error error =>
          if error = .system SystemError.notFound then
            match tree.makeInside above with
            | (.error outer, grown) => (.error outer, grown)
            | (.ok (), grown) =>
                match grown.makeDirectory path with
                | .ok made => (.ok (), made)
                | .error inner =>
                    if grown.isDirectory path then (.ok (), grown) else (.error inner, grown)
          else if tree.isDirectory path then (.ok (), tree)
          else (.error error, tree)

def makeDirectories (tree : FileTree) (path : Path) : Except IoError Unit × FileTree :=
  tree.makeInside path.ancestors

/-- Removes a file, or the link itself where the path names a link. -/
def removeFile (tree : FileTree) (path : Path) : Except IoError FileTree :=
  match tree.lookup .takeLink path.endsInSeparator path with
  | .error error => .error error
  | .ok ⟨_, none, _⟩ => .error (.system SystemError.notFound)
  | .ok ⟨_, some (.directory _), _⟩ => .error (.system SystemError.isDirectory)
  | .ok ⟨location, some _, insists⟩ =>
      if insists then .error (.system SystemError.notDirectory) else .ok (tree.remove location)

def createFile (tree : FileTree) (path : Path) : Except IoError (Location × FileTree) :=
  match tree.lookup .create path.endsInSeparator path with
  | .error error => .error error
  | .ok ⟨_, some (.directory _), _⟩ => .error (.system SystemError.isDirectory)
  | .ok ⟨location, _, _⟩ => .ok (location, tree.put location (.file []))

def writeFile (tree : FileTree) (path : Path) (content : Bytes) : Except IoError FileTree :=
  match tree.makeDirectories (path.parent?.getD []) with
  | (.error error, _) => .error error
  | (.ok (), grown) =>
      match grown.createFile path with
      | .error error => .error error
      | .ok (location, opened) => .ok (opened.put location (.file content))

def makeLink (tree : FileTree) (path target : Path) : Except IoError FileTree :=
  match tree.makeDirectories (path.parent?.getD []) with
  | (.error error, _) => .error error
  | (.ok (), grown) =>
      match grown.lookup .takeLink false path with
      | .error error => .error error
      | .ok ⟨_, some _, _⟩ => .error (.system SystemError.alreadyExists)
      | .ok ⟨location, none, _⟩ => .ok (grown.put location (.link target))

end ArchiveTraversal.FileTree
