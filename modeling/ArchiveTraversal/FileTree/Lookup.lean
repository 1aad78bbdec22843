import ArchiveTraversal.FileTree.Basic
import ArchiveTraversal.SystemError

/-!
Finding the node a path names. Every name but the last must lead to a directory. A link on the way
is replaced by the names of its target, and one lookup follows no more than forty links. Absolute
paths start at the root, which is its own parent, and relative ones at the working directory.
-/

namespace ArchiveTraversal

def longestName : Nat := 255
def longestPath : Nat := 4095
def mostLinks : Nat := 40

/-- What a lookup is for. Only to take a link itself is the last one not followed, unless the path
insists on a directory; to create a file where it insists on one is refused unseen. -/
inductive Purpose where
  | inspect
  | takeLink
  | create
  deriving DecidableEq, Repr

/-- Where a path leads: a location whose directory exists, what stands there, and whether the path
insists on a directory by ending in a separator. -/
structure Place where
  location : Location
  node : Option Node
  insistsOnDirectory : Bool

namespace FileTree

/-- A directory on the way: the names that lead to it, last one first, and its entries. -/
structure Standing where
  trail : List Name
  entries : Entries

def Standing.enter (standing : Standing) (name : Name) (entries : Entries) : Standing :=
  ⟨name :: standing.trail, entries⟩

def Standing.atRoot (tree : FileTree) : Standing := ⟨[], tree.entries⟩

def Standing.leave (tree : FileTree) (standing : Standing) : Standing :=
  match tree.find? standing.trail.tail.reverse with
  | some (.directory entries) => ⟨standing.trail.tail, entries⟩
  | _ => atRoot tree

/-- A relative path starts nowhere once the working directory is gone. -/
def Standing.start (tree : FileTree) (path : Path) : Option Standing :=
  if path.isAbsolute then some (atRoot tree)
  else match tree.find? tree.workingDirectory with
    | some (.directory entries) => some ⟨tree.workingDirectory.reverse, entries⟩
    | _ => none

def Standing.place (standing : Standing) (name : Name) (node : Option Node)
    (insists : Bool) : Place :=
  ⟨(name :: standing.trail).reverse, node, insists⟩

def walkNames (tree : FileTree) (purpose : Purpose)
    (redirect : Standing → Path → List Name → Bool → Except IoError Place) :
    Standing → List Name → Bool → Except IoError Place
  | standing, [], insists =>
      .ok ⟨standing.trail.reverse, some (.directory standing.entries), insists⟩
  | standing, name :: rest, insists =>
      if name = Path.here then walkNames tree purpose redirect standing rest insists
      else if name = Path.up then
        walkNames tree purpose redirect (standing.leave tree) rest insists
      else if purpose = .create ∧ rest = [] ∧ insists then
        .error (.system SystemError.isDirectory)
      else if name.length > longestName then .error (.system SystemError.nameTooLong)
      else match standing.entries.lookup name with
        | some (.directory entries) =>
            walkNames tree purpose redirect (standing.enter name entries) rest insists
        | some (.file content) =>
            if rest = [] then .ok (standing.place name (some (.file content)) insists)
            else .error (.system SystemError.notDirectory)
        | some (.link target) =>
            if purpose = .takeLink ∧ rest = [] ∧ !insists then
              .ok (standing.place name (some (.link target)) insists)
            else redirect standing target rest insists
        | none =>
            if rest = [] then .ok (standing.place name none insists)
            else .error (.system SystemError.notFound)

def walk (tree : FileTree) (purpose : Purpose) :
    Nat → Standing → List Name → Bool → Except IoError Place
  | 0 => walkNames tree purpose fun _ _ _ _ => .error (.system SystemError.tooManyLinks)
  | links + 1 => walkNames tree purpose fun standing target rest insists =>
      walk tree purpose links (if target.isAbsolute then .atRoot tree else standing)
        (target.segments ++ rest) (insists || (rest = [] && target.endsInSeparator))

/-- Refused before any lookup: a path that cannot be handed over, says nothing, or is too long. -/
def refusal (path : Path) : Option IoError :=
  if 0 ∈ path then some .interiorNul
  else if path = [] then some (.system SystemError.notFound)
  else if path.length > longestPath then some (.system SystemError.nameTooLong)
  else none

def follow (tree : FileTree) (purpose : Purpose) (insists : Bool) (path : Path) :
    Except IoError Place :=
  match Standing.start tree path with
  | none => .error (.system SystemError.notFound)
  | some standing => walk tree purpose mostLinks standing path.segments insists

def lookup (tree : FileTree) (purpose : Purpose) (insists : Bool) (path : Path) :
    Except IoError Place :=
  match refusal path with
  | some error => .error error
  | none => tree.follow purpose insists path

def metadata (tree : FileTree) (path : Path) : Except IoError Node :=
  match tree.lookup .inspect path.endsInSeparator path with
  | .error error => .error error
  | .ok ⟨_, none, _⟩ => .error (.system SystemError.notFound)
  | .ok ⟨_, some (.directory entries), _⟩ => .ok (.directory entries)
  | .ok ⟨_, some node, insists⟩ =>
      if insists then .error (.system SystemError.notDirectory) else .ok node

def isFile (tree : FileTree) (path : Path) : Bool :=
  match tree.metadata path with
  | .ok (.file _) => true
  | _ => false

def isDirectory (tree : FileTree) (path : Path) : Bool :=
  match tree.metadata path with
  | .ok (.directory _) => true
  | _ => false

end FileTree

end ArchiveTraversal
