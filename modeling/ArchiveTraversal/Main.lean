import ArchiveTraversal.CommandLine.Run

/-!
The program. No decoder is linked in and no file is looked at: an archive that is named counts as
being there, and is refused for want of a decoder. Arguments, log and exit codes are in full.
-/

namespace ArchiveTraversal.CommandLine

def treeWith (path : Path) : FileTree :=
  match ({} : FileTree).writeFile path [0] with
  | .ok tree => tree
  | .error _ => {}

def archiveOf : Command → Path
  | .list archive _ => archive
  | .print archive _ => archive
  | .unpack archive _ _ => archive

def hostFor (arguments : List Bytes) : Host :=
  match readArguments arguments with
  | .ok (.run command) => { tree := treeWith (archiveOf command) }
  | _ => {}

end ArchiveTraversal.CommandLine

open ArchiveTraversal in
def main (arguments : List String) : IO UInt32 := do
  let bytes := arguments.map Text.Utf8.encode
  let setting ← IO.getEnv "RUST_LOG"
  let (exit, _) := CommandLine.run bytes setting (CommandLine.hostFor bytes)
  let output ← IO.getStdout
  output.write ⟨exit.stdout.toArray⟩
  output.flush
  for line in exit.stderr do
    IO.eprintln line
  return UInt32.ofNat exit.code
