import ArchiveTraversal.SystemError
import ArchiveTraversal.Text.Utf8

/-!
Destinations for bytes. A sink answers each write of a buffer: it is interrupted and will be asked
again, it accepts a number of bytes from the front, or it fails. Interruptions are finite in number.
Writing a whole buffer repeats until every byte is accepted; a sink that accepts none has failed.
-/

namespace ArchiveTraversal

inductive WriteReply (State : Type) where
  | interrupted (again : WriteReply State)
  | accepted (count : Nat) (state : State)
  | failed (error : IoError) (state : State)

structure Sink (State : Type) where
  write : State → Bytes → WriteReply State

namespace WriteReply

def settled {State : Type} : WriteReply State → Except IoError Nat × State
  | .interrupted again => again.settled
  | .accepted count state => (.ok count, state)
  | .failed error state => (.error error, state)

def map {State Image : Type} (change : Nat → State → Image) : WriteReply State → WriteReply Image
  | .interrupted again => .interrupted (again.map change)
  | .accepted count state => .accepted count (change count state)
  | .failed error state => .failed error (change 0 state)

end WriteReply

namespace Sink

variable {State : Type}

/-- Each round asks again with what is left. The count is cut off at the buffer's end. -/
def writeAll (sink : Sink State) (state : State) (buffer : Bytes) : State × Option IoError :=
  match buffer with
  | [] => (state, none)
  | byte :: rest =>
      match (sink.write state (byte :: rest)).settled with
      | (.error error, state) => (state, some error)
      | (.ok 0, state) => (state, some .writeZero)
      | (.ok (count + 1), state) => sink.writeAll state (rest.drop count)
termination_by buffer.length

def recording (sink : Sink State) : Sink (State × List Bytes) where
  write state buffer :=
    (sink.write state.1 buffer).map fun count after => (after, buffer.take count :: state.2)

def unlimited : Sink Unit where
  write _ buffer := .accepted buffer.length ()

end Sink

structure SinkLimits where
  perWrite : Option Nat := none
  room : Option Nat := none
  interruptEvery : Nat := 0
  refusesSilently : Bool := false
  deriving DecidableEq, Repr

structure SinkUsage where
  writes : Nat := 0
  taken : Nat := 0
  deriving DecidableEq, Repr

def diskFull : IoError := .other "disk full"

namespace SinkLimits

def takes (limits : SinkLimits) (usage : SinkUsage) (buffer : Bytes) : WriteReply SinkUsage :=
  let within (limit : Option Nat) (count : Nat) : Nat := (limit.map (min count)).getD count
  let count := within (limits.room.map (· - usage.taken)) (within limits.perWrite buffer.length)
  if count = 0 ∧ !limits.refusesSilently then .failed diskFull usage
  else .accepted count { usage with taken := usage.taken + count }

/-- Writes are counted from one; those whose number the period divides are interrupted. -/
def sink (limits : SinkLimits) : Sink SinkUsage where
  write usage buffer :=
    let first := { usage with writes := usage.writes + 1 }
    if limits.interruptEvery > 0 ∧ first.writes % limits.interruptEvery = 0 then
      .interrupted (limits.takes { first with writes := first.writes + 1 } buffer)
    else limits.takes first buffer

end SinkLimits

end ArchiveTraversal
