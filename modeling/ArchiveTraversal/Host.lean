import ArchiveTraversal.Decoder.Handle
import ArchiveTraversal.Event
import ArchiveTraversal.FileTree.Change

/-!
What a reader runs on: the decoders still to be handed out, the file tree, the cancel flag, and a
journal of all that can be seen from outside, in the order in which it happened. The journal only
grows, and the flag is never lowered.
-/

namespace ArchiveTraversal

inductive Record where
  | call (handle : Nat) (call : Decoder.Call)
  | event (event : Event)
  | progress (name : String) (total : Nat)
  | cancelRaised
  deriving DecidableEq, Repr

structure Host where
  decoders : List (Option Decoder.Script) := []
  allocated : Nat := 0
  tree : FileTree := {}
  cancelled : Bool := false
  journal : Array Record := #[]

namespace Host

def record (host : Host) (entry : Record) : Host :=
  { host with journal := host.journal.push entry }

def call (host : Host) (handle : Nat) (call : Decoder.Call) : Host :=
  host.record (.call handle call)

def event (host : Host) (event : Event) : Host := host.record (.event event)

def raiseIf (host : Host) (cancels : Bool) : Host :=
  if cancels then { host with cancelled := true }.record .cancelRaised else host

/-- The same host for a run whose cancel flag is its own: nothing has raised it, or will. -/
def withOwnFlag (host : Host) : Host :=
  { host with
    decoders := host.decoders.map (·.map Decoder.Script.withoutCancel)
    cancelled := false }

/-- The next decoder, if there is one. A handle number is used up either way. -/
def allocate (host : Host) : Option Decoder.Handle × Host :=
  let number := host.allocated
  let after := { host with decoders := host.decoders.tail, allocated := number + 1 }.call number .allocate
  match host.decoders with
  | some script :: _ => (some (.ofScript number script), after)
  | _ => (none, after)

end Host

end ArchiveTraversal
