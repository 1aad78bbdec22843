import ArchiveTraversal.Proofs.Decoder.Answers
import ArchiveTraversal.Proofs.Session.Single

/-!
What the journal tells of a session while it is open. Each request that reaches the decoder leaves
the call, the flag if it is raised by the answer, and one event that tells how the request turned
out; a request to skip leaves the call alone, and one that does not reach the decoder leaves
nothing. So the events are an account of the answers that were given, and of the calls that were
made.
-/

namespace ArchiveTraversal

open Decoder

namespace Decoder.Handle

/-- How much a decoder gives when it is asked for data and does not fail. -/
def served? (handle : Handle) : Call → Option Nat
  | .readData capacity =>
      let count := (handle.readData capacity).1.count
      if count < 0 then none else some (min count.toNat capacity)
  | _ => none

def servings (handle : Handle) : List Call → List Nat
  | [] => []
  | call :: rest => (handle.served? call).toList ++ (handle.next call).servings rest

theorem servings_append (handle : Handle) (calls more : List Call) :
    handle.servings (calls ++ more) =
      handle.servings calls ++ (handle.after calls).servings more := by
  induction calls generalizing handle with
  | nil => rfl
  | cons call rest ih =>
      rw [List.cons_append, servings, servings, ih, List.append_assoc]
      rfl

theorem script_next (handle : Handle) (call : Call) :
    (handle.next call).script = handle.script := by
  cases call with
  | nextHeader => exact handle.nextHeader_fields.2.1
  | readData capacity => exact (handle.readData_fields capacity).2
  | _ => rfl

theorem script_after (handle : Handle) (calls : List Call) :
    (handle.after calls).script = handle.script := by
  induction calls generalizing handle with
  | nil => rfl
  | cons call rest ih => exact (ih (handle.next call)).trans (handle.script_next call)

theorem after_concat (handle : Handle) (calls : List Call) (call : Call) :
    handle.after (calls ++ [call]) = (handle.after calls).next call := List.foldl_append

end Decoder.Handle

namespace Record

/-- What the news that a header has been read says of it: its index, the member's name, its size. -/
def header? : Record → Option (Nat × String × Int)
  | .event (.headerRead index name size) => some (index, name, size)
  | _ => none

def size? : Record → Option Nat
  | .event (.chunkRead size) => some size
  | _ => none

def isLast : Record → Bool
  | .event (.ended ..) | .event (.headerFailed ..) | .event (.dataFailed ..) => true
  | _ => false

def ofTraversal (number : Nat) : Record → Bool
  | .call own made => own = number && made.traverses
  | .event (.headerRead ..) | .event (.chunkRead _) => true
  | .cancelRaised => true
  | entry => entry.isLast

def callsIn (records : List Record) : List Call := records.filterMap fun entry =>
  entry.call?.map Prod.snd

theorem callsIn_append (records more : List Record) :
    callsIn (records ++ more) = callsIn records ++ callsIn more := List.filterMap_append

/-- What a request leaves that reaches the decoder, with the event that tells of it. -/
def turn (number : Nat) (made : Call) (cancels : Bool) (event : Event) : List Record :=
  .call number made :: raised cancels ++ [.event event]

section

variable {number : Nat} {made : Call} {cancels : Bool} {event : Event}

theorem filterMap_turn {Found : Type} {look : Record → Option Found}
    (unflagged : look .cancelRaised = none) :
    (turn number made cancels event).filterMap look =
      (look (.call number made)).toList ++ (look (.event event)).toList := by
  have quiet : (raised cancels).filterMap look = [] := by
    apply List.filterMap_eq_nil_iff.mpr
    intro entry member
    rw [eq_of_raised member]
    exact unflagged
  rw [turn, List.filterMap_append, List.filterMap_cons, quiet]
  cases look (.call number made) <;> cases found : look (.event event) <;> simp [found]

theorem callsIn_turn : callsIn (turn number made cancels event) = [made] := filterMap_turn rfl

theorem mem_turn {entry : Record} (member : entry ∈ turn number made cancels event) :
    entry = .call number made ∨ entry = .cancelRaised ∨ entry = .event event := by
  rcases List.mem_append.mp member with early | last
  · rcases List.mem_cons.mp early with called | flag
    · exact .inl called
    · exact .inr (.inl (eq_of_raised flag))
  · exact .inr (.inr (List.mem_singleton.mp last))

end

end Record

def Answer.chunk? : Answer → Option Bytes
  | .chunk bytes => some bytes
  | _ => none

namespace Log

def given (log : Log) : List Header := log.filterMap fun done => done.2.member?

def chunks (log : Log) : List Bytes := log.filterMap fun done => done.2.chunk?

end Log

/-- Nothing of the traversal is told after the news that it is over. -/
def Record.Conclude (records : List Record) : Prop :=
  ∀ early entry late, records = early ++ entry :: late → entry.isLast = true →
    ∀ other ∈ late, other.header? = none ∧ other.size? = none ∧ other.isLast = false

theorem Record.Conclude.after {records more : List Record} (conclude : Record.Conclude more)
    (goesOn : ∀ entry ∈ records, entry.isLast = false) : Record.Conclude (records ++ more) := by
  intro early entry late split last
  rcases List.append_eq_append_iff.mp split with ⟨passed, rfl, onward⟩ | ⟨left, before, onward⟩
  · exact conclude passed entry late onward last
  · cases left with
    | nil => exact conclude [] entry late onward.symm last
    | cons first rest =>
        cases onward
        have there : entry ∈ records := by simp [before]
        cases last.symm.trans (goesOn entry there)

theorem Record.conclude_single (entry : Record) : Record.Conclude [entry] := by
  intro early other late split
  cases early with
  | nil =>
      cases split
      simp
  | cons first rest => cases rest <;> cases split

theorem Record.conclude_turn (number : Nat) (made : Call) (cancels : Bool) (event : Event) :
    Record.Conclude (Record.turn number made cancels event) := by
  apply (Record.conclude_single (.event event)).after
  intro entry member
  rcases List.mem_cons.mp member with rfl | flag
  · rfl
  · rw [Record.eq_of_raised flag]
    rfl

/-- The records are a faithful account of what a session has been asked for, and of how its decoder
has been used from where it started. -/
structure Faithful (start : Handle) (log : Log) (records : List Record) : Prop where
  own : ∀ entry ∈ records, entry.ofTraversal start.number = true
  headers : records.filterMap Record.header? = log.given.mapIdx fun index header =>
    (index + 1, header.filename, header.size)
  sizes : records.filterMap Record.size? = start.servings (Record.callsIn records)
  bytes : (records.filterMap Record.size?).sum = log.chunks.flatten.length
  conclude : Record.Conclude records
  ended : ∀ path entries, .event (.ended path entries) ∈ records →
    entries = (records.filterMap Record.header?).length

section

variable {start : Handle} {log : Log} {records : List Record} {done : Operation × Answer}

theorem Faithful.nil (start : Handle) : Faithful start [] [] := by
  refine ⟨by simp, rfl, rfl, rfl, ?_, by simp⟩
  intro early entry late split
  cases early <;> cases split

theorem Faithful.silent (faithful : Faithful start log records) (none : done.2.member? = none)
    (nothing : done.2.chunk?.getD [] = []) : Faithful start (log ++ [done]) records := by
  have same : (log ++ [done]).given = log.given := by
    simp [Log.given, none]
  have bytes : (log ++ [done]).chunks.flatten = log.chunks.flatten := by
    cases given : done.2.chunk? with
    | none => simp [Log.chunks, given]
    | some chunk =>
        rw [given] at nothing
        simp_all [Log.chunks]
  refine ⟨faithful.own, ?_, faithful.sizes, ?_, faithful.conclude, faithful.ended⟩
  · rw [same]
    exact faithful.headers
  · rw [bytes]
    exact faithful.bytes

theorem Faithful.counted (faithful : Faithful start log records) :
    (records.filterMap Record.header?).length = log.given.length := by
  rw [faithful.headers, List.length_mapIdx]

theorem Faithful.extend {more : List Record} (faithful : Faithful start log records)
    (goesOn : ∀ entry ∈ records, entry.isLast = false)
    (own : ∀ entry ∈ more, entry.ofTraversal start.number = true)
    (headers : more.filterMap Record.header? = (done.2.member?.map fun header =>
      (log.given.length + 1, header.filename, header.size)).toList)
    (sizes : more.filterMap Record.size? =
      (start.after (Record.callsIn records)).servings (Record.callsIn more))
    (bytes : (more.filterMap Record.size?).sum = (done.2.chunk?.getD []).length)
    (conclude : Record.Conclude more)
    (ended : ∀ path entries, .event (.ended path entries) ∈ more →
      entries = log.given.length ∧ done.2.member? = none) :
    Faithful start (log ++ [done]) (records ++ more) := by
  have given : (log ++ [done]).given = log.given ++ done.2.member?.toList := by
    cases member : done.2.member? <;> simp [Log.given, member]
  have chunks : (log ++ [done]).chunks.flatten =
      log.chunks.flatten ++ done.2.chunk?.getD [] := by
    cases chunk : done.2.chunk? <;> simp [Log.chunks, chunk]
  constructor
  · intro entry member
    rcases List.mem_append.mp member with early | late
    · exact faithful.own entry early
    · exact own entry late
  · rw [List.filterMap_append, faithful.headers, headers, given]
    cases done.2.member? with
    | none => simp
    | some header => simp [List.mapIdx_concat]
  · rw [List.filterMap_append, faithful.sizes, sizes, Record.callsIn_append,
      Handle.servings_append]
  · rw [List.filterMap_append, List.sum_append, faithful.bytes, bytes, chunks, List.length_append]
  · exact conclude.after goesOn
  · intro path entries member
    rcases List.mem_append.mp member with early | late
    · cases goesOn _ early
    · obtain ⟨count, none⟩ := ended path entries late
      rw [List.filterMap_append, headers, none, count, ← faithful.counted]
      simp

end

namespace Session

/-- A session of which all has been told so far, and where that has led it. -/
structure Told (start : Handle) (log : Log) (records : List Record) (session : Session) : Prop where
  faithful : Faithful start log records
  handle : session.handle = start.after (Record.callsIn records)
  seen : session.entriesSeen = log.given.length
  goesOn : session.Going → ∀ entry ∈ records, entry.isLast = false

structure Tells (session : Session) (done : Operation × Answer) (made : Call) (event : Event) :
    Prop where
  traverses : made.traverses = true
  own : (Record.event event).ofTraversal session.handle.number = true
  header : (Record.event event).header? = done.2.member?.map fun header =>
    (session.entriesSeen + 1, header.filename, header.size)
  size : (Record.event event).size? = session.handle.served? made
  bytes : (Record.event event).size?.getD 0 = (done.2.chunk?.getD []).length
  ended : ∀ path entries, event = .ended path entries →
    entries = session.entriesSeen ∧ done.2.member? = none

variable {start : Handle} {log : Log} {records : List Record} {session after : Session}
  {done : Operation × Answer}

theorem Told.number (told : session.Told start log records) :
    session.handle.number = start.number := by
  rw [told.handle, Handle.number_after]

theorem Told.silent (told : session.Told start log records) (none : done.2.member? = none)
    (nothing : done.2.chunk?.getD [] = []) : session.Told start (log ++ [done]) records := by
  refine ⟨told.faithful.silent none nothing, told.handle, ?_, told.goesOn⟩
  rw [told.seen]
  simp [Log.given, none]

theorem Told.turn (told : session.Told start log records) (going : session.Going) {made : Call}
    {event : Event} (tells : session.Tells done made event) (cancels : Bool)
    (handle : after.handle = session.handle.next made)
    (seen : after.entriesSeen = session.entriesSeen + done.2.member?.toList.length)
    (onward : after.Going → (Record.event event).isLast = false) :
    after.Told start (log ++ [done])
      (records ++ Record.turn session.handle.number made cancels event) := by
  have own := told.number
  -- The account grows by the records of one request; what it has told before stays.
  constructor
  · apply told.faithful.extend (told.goesOn going)
    · intro entry member
      rw [← own]
      rcases Record.mem_turn member with rfl | rfl | rfl
      · simp [Record.ofTraversal, tells.traverses]
      · rfl
      · exact tells.own
    · rw [Record.filterMap_turn rfl, tells.header, told.seen]
      rfl
    · rw [Record.filterMap_turn rfl, Record.callsIn_turn, tells.size, told.handle]
      simp [Handle.servings, Record.size?]
    · rw [Record.filterMap_turn rfl, ← tells.bytes]
      cases (Record.event event).size? <;> simp [Record.size?]
    · exact Record.conclude_turn _ _ _ _
    · intro path entries member
      rcases Record.mem_turn member with told | flag | told
      · cases told
      · cases flag
      · cases told
        rw [← told.seen]
        exact tells.ended path entries rfl
  · rw [handle, told.handle, Record.callsIn_append, Record.callsIn_turn, Handle.after_concat]
  · rw [seen, told.seen]
    cases member : done.2.member? <;> simp [Log.given, member]
  · intro still entry member
    rcases List.mem_append.mp member with early | late
    · exact told.goesOn going entry early
    · rcases Record.mem_turn late with rfl | rfl | rfl
      · rfl
      · rfl
      · exact onward still

/-- The step of a request to skip data, of which there is no news. -/
theorem Told.skipped (told : session.Told start log records) (going : session.Going)
    (none : done.2.member? = none) (nothing : done.2.chunk?.getD [] = [])
    (handle : after.handle = session.handle.skipData.2)
    (seen : after.entriesSeen = session.entriesSeen) :
    after.Told start (log ++ [done]) (records ++ [.call session.handle.number .skipData]) := by
  have own := told.number
  constructor
  · apply told.faithful.extend (told.goesOn going)
    · simp [Record.ofTraversal, Call.traverses, own]
    · rw [none]
      rfl
    · rfl
    · rw [nothing]
      rfl
    · exact Record.conclude_single _
    · simp
  · have asked : Record.callsIn [.call session.handle.number .skipData] = [.skipData] := rfl
    rw [Record.callsIn_append, asked, Handle.after_concat, ← told.handle]
    exact handle
  · rw [seen, told.seen]
    simp [Log.given, none]
  · intro _ entry member
    rcases List.mem_append.mp member with early | late
    · exact told.goesOn going entry early
    · rw [List.mem_singleton.mp late]
      rfl

theorem Told.advance (told : session.Told start log records) (host : Host) :
    ∃ more, host.Adds (session.advance host).host more ∧
      (session.advance host).session.Told start
        (log ++ [(.advance, (session.perform host .advance).answer)]) (records ++ more) := by
  have asked (event : Event) := (session.asked_adds host).trans (Host.event_adds _ event)
  have advances := session.advance_advances host
  simp only [perform, stay]
  generalize session.advance host = outcome at *
  cases advances with
  | exhausted =>
      refine ⟨[], .refl host, ?_⟩
      rw [List.append_nil]
      exact told.silent rfl rfl
  | failed =>
      refine ⟨[], .refl host, ?_⟩
      rw [List.append_nil]
      exact told.silent rfl rfl
  | member going =>
      refine ⟨_, asked _, told.turn going ⟨rfl, rfl, rfl, rfl, rfl, ?_⟩ _ rfl rfl fun _ => rfl⟩
      rintro path entries ⟨⟩
  | ended going =>
      refine ⟨_, asked _, told.turn going ⟨rfl, rfl, rfl, rfl, rfl, ?_⟩ _ rfl rfl ?_⟩
      · rintro path entries ⟨⟩
        exact ⟨rfl, rfl⟩
      · intro still
        exact absurd rfl still.not_exhausted
  | broken going =>
      refine ⟨_, asked _, told.turn going ⟨rfl, rfl, rfl, rfl, rfl, ?_⟩ _ rfl rfl ?_⟩
      · rintro path entries ⟨⟩
      · intro still
        exact absurd rfl still.not_failed

theorem Told.readChunk (told : session.Told start log records) (host : Host) :
    ∃ more, host.Adds (session.readChunk host).host more ∧
      (session.readChunk host).session.Told start
        (log ++ [(.read, (session.perform host .read).answer)]) (records ++ more) := by
  have fetched (event : Event) := (session.fetched_adds host).trans (Host.event_adds _ event)
  have length := session.handle.length_readData session.setup.options.chunkSize
  have reads := session.readChunk_reads host
  simp only [perform, stay]
  generalize session.readChunk host = outcome at *
  cases reads with
  | chunk onData enough =>
      have served : some session.reply.filled.length =
          session.handle.served? (.readData session.setup.options.chunkSize) :=
        (congrArg some length).trans (if_neg (Int.not_lt.mpr enough)).symm
      refine ⟨_, fetched _, told.turn (.inr onData.cursor) ⟨rfl, rfl, rfl, ?_, rfl, ?_⟩ _ rfl rfl
        fun _ => rfl⟩
      · exact served
      · rintro path entries ⟨⟩
  | broken onData negative =>
      have unserved : none =
          session.handle.served? (.readData session.setup.options.chunkSize) :=
        (if_pos negative).symm
      refine ⟨_, fetched _, told.turn (.inr onData.cursor) ⟨rfl, rfl, rfl, ?_, rfl, ?_⟩ _ rfl rfl
        ?_⟩
      · exact unserved
      · rintro path entries ⟨⟩
      · intro still
        exact absurd rfl still.not_failed
  | _ =>
      refine ⟨[], .refl host, ?_⟩
      rw [List.append_nil]
      exact told.silent rfl rfl

theorem Told.skipEntry (told : session.Told start log records) (host : Host) :
    ∃ more, host.Adds (session.skipEntry host).host more ∧
      (session.skipEntry host).session.Told start
        (log ++ [(.skip, (session.perform host .skip).answer)]) (records ++ more) := by
  have called : host.Adds (session.call host .skipData) [.call session.handle.number .skipData] :=
    host.record_adds _
  have skips := session.skipEntry_skips host
  simp only [perform, stay]
  generalize session.skipEntry host = outcome at *
  cases skips with
  | skipped onMember => exact ⟨_, called, told.skipped (.inr onMember) rfl rfl rfl rfl⟩
  | broken onMember => exact ⟨_, called, told.skipped (.inr onMember) rfl rfl rfl rfl⟩
  | _ =>
      refine ⟨[], .refl host, ?_⟩
      rw [List.append_nil]
      exact told.silent rfl rfl

theorem Told.perform (told : session.Told start log records) (host : Host) {operation : Operation}
    (stays : operation.Stays) (one : (session.perform host operation).answer.ofMany = false) :
    ∃ more after, (session.perform host operation).position = .inSession after ∧
      host.Adds (session.perform host operation).host more ∧
      after.Told start (log ++ [(operation, (session.perform host operation).answer)])
        (records ++ more) := by
  cases operation with
  | advance =>
      obtain ⟨more, adds, onward⟩ := told.advance host
      exact ⟨more, _, rfl, adds, onward⟩
  | read =>
      obtain ⟨more, adds, onward⟩ := told.readChunk host
      exact ⟨more, _, rfl, adds, onward⟩
  | skip =>
      obtain ⟨more, adds, onward⟩ := told.skipEntry host
      exact ⟨more, _, rfl, adds, onward⟩
  | drain => cases one
  | copy => cases one
  | close => cases stays
  | drop => cases stays
  | abandon => cases stays
  | _ =>
      refine ⟨[], session, rfl, .refl host, ?_⟩
      rw [List.append_nil]
      exact told.silent rfl rfl

end Session

end ArchiveTraversal
