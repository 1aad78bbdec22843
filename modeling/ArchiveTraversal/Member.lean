import ArchiveTraversal.Text.Quoted

/-!
Members of an archive: what a header says about one, and the snapshot that outlives the header.
-/

namespace ArchiveTraversal

inductive MemberKind where
  | file
  | directory
  | symlink
  | other
  deriving DecidableEq, Repr

namespace MemberKind

/-- The kind is in the four bits of the mode above the permissions. -/
def ofMode (mode : Nat) : MemberKind :=
  match mode / 0o10000 % 16 with
  | 0o10 => .file
  | 0o4 => .directory
  | 0o12 => .symlink
  | _ => .other

def name : MemberKind → String
  | .file => "file"
  | .directory => "directory"
  | .symlink => "symlink"
  | .other => "other"

def debugName : MemberKind → String
  | .file => "File"
  | .directory => "Directory"
  | .symlink => "Symlink"
  | .other => "Other"

end MemberKind

structure MemberInfo where
  path : String
  size : Int
  kind : MemberKind
  deriving DecidableEq, Repr

def MemberInfo.isDirectory (info : MemberInfo) : Bool := info.kind = .directory

/-- A header as the decoder holds it. A name may come already converted, or raw, or not at all. -/
structure Header where
  convertedName : Option Bytes
  rawName : Option Bytes
  size : Int
  sizeIsKnown : Bool
  mode : Nat
  deriving DecidableEq, Repr

namespace Header

def filename (header : Header) : String :=
  match header.convertedName, header.rawName with
  | some name, _ => Text.Utf8.decodeLossy name
  | none, some name => Text.Utf8.decodeLossy name
  | none, none => ""

def kind (header : Header) : MemberKind := .ofMode header.mode

def isDirectory (header : Header) : Bool := header.kind = .directory

def info (header : Header) : MemberInfo := ⟨header.filename, header.size, header.kind⟩

def debug (header : Header) : String :=
  "ArchiveEntry \x7b filename: " ++ Text.Quoted.text header.filename ++
    ", size: " ++ toString header.size ++ ", kind: " ++ header.kind.debugName ++ " \x7d"

end Header

end ArchiveTraversal
