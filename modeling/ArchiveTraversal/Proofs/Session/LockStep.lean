import ArchiveTraversal.Proofs.Journal.Growth
import ArchiveTraversal.Proofs.Session.Standstill

/-!
Two sessions in lock step. What a session does next depends on the member that it stands on, on the
data left of that, on the headers still to come and on the cancel flag. Sessions that agree on these
do the same, whatever else is different about them: how many members they have come past, what is
left in their buffers, and what their decoders were asked before.
-/

namespace ArchiveTraversal

open Decoder

/-- The record is of something done, and not just logged. -/
def Record.isAct : Record → Bool
  | .event _ => false
  | _ => true

theorem Record.acts_raised (cancels : Bool) :
    (raised cancels).filter Record.isAct = raised cancels := by
  cases cancels <;> rfl

namespace Host

/-- What has been done from one host to the other, apart from entries in the log. -/
def Acts (before after : Host) (acts : List Record) : Prop :=
  ∃ records, before.Adds after records ∧ records.filter Record.isAct = acts

theorem Acts.refl (host : Host) : host.Acts host [] := ⟨[], .refl host, rfl⟩

theorem Acts.trans {before between after : Host} {acts more : List Record}
    (first : before.Acts between acts) (second : between.Acts after more) :
    before.Acts after (acts ++ more) := by
  obtain ⟨records, adds, rfl⟩ := first
  obtain ⟨others, further, rfl⟩ := second
  exact ⟨records ++ others, adds.trans further, List.filter_append ..⟩

theorem Adds.acts {before after : Host} {records : List Record}
    (adds : before.Adds after records) : before.Acts after (records.filter Record.isAct) :=
  ⟨records, adds, rfl⟩

theorem event_acts (host : Host) (event : Event) : host.Acts (host.event event) [] :=
  (host.event_adds event).acts

structure Agrees (one other : Host) : Prop where
  tree : other.tree = one.tree
  flag : other.cancelled = one.cancelled

structure InStep (before after other otherAfter : Host) : Prop where
  agrees : after.Agrees otherAfter
  acts : ∃ acts, before.Acts after acts ∧ other.Acts otherAfter acts

theorem InStep.refl {one other : Host} (agrees : one.Agrees other) :
    InStep one one other other :=
  ⟨agrees, [], .refl one, .refl other⟩

theorem InStep.trans {before between after other otherBetween otherAfter : Host}
    (first : InStep before between other otherBetween)
    (second : InStep between after otherBetween otherAfter) :
    InStep before after other otherAfter := by
  obtain ⟨acts, done, doneToo⟩ := first.acts
  obtain ⟨more, further, furtherToo⟩ := second.acts
  exact ⟨second.agrees, acts ++ more, done.trans further, doneToo.trans furtherToo⟩

theorem InStep.event {before after other otherAfter : Host}
    (inStep : InStep before after other otherAfter) (event otherEvent : Event) :
    InStep before (after.event event) other (otherAfter.event otherEvent) :=
  inStep.trans ⟨⟨inStep.agrees.tree, inStep.agrees.flag⟩, [], event_acts .., event_acts ..⟩

theorem Agrees.raiseIf {one other : Host} (agrees : one.Agrees other) (cancels : Bool) :
    InStep one (one.raiseIf cancels) other (other.raiseIf cancels) := by
  refine ⟨⟨?_, ?_⟩, raised cancels, ?_, ?_⟩
  · rw [(other.raiseIf_extends cancels).tree, (one.raiseIf_extends cancels).tree, agrees.tree]
  · rw [raiseIf_cancelled, raiseIf_cancelled, agrees.flag]
  · exact ⟨_, one.raiseIf_adds cancels, Record.acts_raised cancels⟩
  · exact ⟨_, other.raiseIf_adds cancels, Record.acts_raised cancels⟩

theorem Agrees.record {one other : Host} (agrees : one.Agrees other) (entry : Record) :
    InStep one (one.record entry) other (other.record entry) :=
  ⟨⟨agrees.tree, agrees.flag⟩, _, (one.record_adds entry).acts, (other.record_adds entry).acts⟩

end Host

open Host

theorem Decoder.Handle.readData_congr {one other : Handle} (same : other.data = one.data)
    (capacity : Nat) :
    (other.readData capacity).1 = (one.readData capacity).1 ∧
      (other.readData capacity).2.data = (one.readData capacity).2.data ∧
      (other.readData capacity).2.diagnostic = (one.readData capacity).2.diagnostic := by
  unfold readData
  rw [same]
  cases one.data with
  | nil => exact ⟨rfl, rfl, rfl⟩
  | cons item rest =>
      obtain ⟨serving, diagnostic, cancels⟩ := item
      cases serving with
      | raw count bytes => exact ⟨rfl, rfl, rfl⟩
      | content bytes =>
          dsimp only
          cases bytes.drop capacity <;> exact ⟨rfl, rfl, rfl⟩

theorem Decoder.Handle.cancels_congr {one other : Handle}
    (next : other.headers.head? = one.headers.head?) :
    other.nextHeader.1.cancels = one.nextHeader.1.cancels := by
  cases left : one.headers <;> cases leftToo : other.headers <;> simp_all [nextHeader]

namespace Session

/-- Two sessions that stand on members with the same header, and have the same data left of them. -/
structure Kindred (one other : Session) : Prop where
  path : other.path = one.path
  number : other.handle.number = one.handle.number
  cursor : other.cursor = one.cursor
  current : other.current.map (·.header) = one.current.map (·.header)
  data : other.handle.data = one.handle.data

structure Alike (one other : Session) : Prop extends Kindred one other where
  capacity : other.setup.options.chunkSize = one.setup.options.chunkSize

variable {one other : Session} {host otherHost : Host}

theorem Kindred.onData (kindred : one.Kindred other) : other.OnData ↔ one.OnData := by
  have same : other.current.any (·.header.isDirectory) =
      one.current.any (·.header.isDirectory) := by
    have mapped := congrArg (Option.any Header.isDirectory) kindred.current
    simpa [Option.any_map, Function.comp_def] using mapped
  constructor
  · rintro ⟨cursor, regular⟩
    exact ⟨kindred.cursor.symm.trans cursor, same.symm.trans regular⟩
  · rintro ⟨cursor, regular⟩
    exact ⟨kindred.cursor.trans cursor, same.trans regular⟩

theorem Alike.reply (alike : one.Alike other) : other.reply = one.reply := by
  have answer := (Handle.readData_congr alike.data one.setup.options.chunkSize).1
  rw [Session.reply, alike.capacity, answer, Session.reply]

theorem Alike.fetched (alike : one.Alike other) (agrees : host.Agrees otherHost) :
    InStep host (one.fetched host) otherHost (other.fetched otherHost) := by
  have called := agrees.record (.call one.handle.number (.readData one.setup.options.chunkSize))
  have raised := called.trans (called.agrees.raiseIf one.reply.cancels)
  unfold Session.fetched Session.call Host.call
  rw [alike.reply, alike.number, alike.capacity]
  exact raised

theorem Alike.filled (alike : one.Alike other) (cursor : Cursor) :
    (one.filled cursor).Alike (other.filled cursor) := by
  have answer := Handle.readData_congr alike.data one.setup.options.chunkSize
  constructor
  · constructor
    · exact alike.path
    · exact ((other.handle.readData_fields _).1.trans alike.number).trans
        (one.handle.readData_fields _).1.symm
    · rfl
    · exact alike.current
    · simp only [Session.filled, alike.capacity]
      exact answer.2.1
  · exact alike.capacity

theorem Alike.readChunk (alike : one.Alike other) (agrees : host.Agrees otherHost) :
    (other.readChunk otherHost).value = (one.readChunk host).value ∧
      (one.readChunk host).session.Alike (other.readChunk otherHost).session ∧
      InStep host (one.readChunk host).host otherHost (other.readChunk otherHost).host := by
  by_cases onData : one.OnData
  · have answer := Handle.readData_congr alike.data one.setup.options.chunkSize
    have reason : (other.filled .failed).handle.diagnostic =
        (one.filled .failed).handle.diagnostic := by
      simp only [Session.filled, alike.capacity]
      exact answer.2.2
    have fetched := alike.fetched agrees
    rw [onData.readChunk_eq, (alike.onData.mpr onData).readChunk_eq, alike.reply]
    split
    · refine ⟨?_, alike.filled .failed, fetched.event _ _⟩
      simp only [readError, alike.path, Handle.reason, reason]
    · exact ⟨rfl, alike.filled .onMember, fetched.event _ _⟩
  · have off : ¬ other.OnData := fun there => onData (alike.onData.mp there)
    rw [readChunk_dry onData, readChunk_dry off]
    refine ⟨?_, alike, .refl agrees⟩
    simp only [dry, alike.cursor, readError, alike.path]

def Heedless {Gathered Cause : Type} (visitor : Visitor Gathered Cause) : Prop :=
  ∀ one other : Host, other.cancelled = one.cancelled → visitor.halt other = visitor.halt one

theorem Alike.forEachChunk {Gathered Cause : Type} {visitor : Visitor Gathered Cause}
    (heedless : Heedless visitor) (gathered : Gathered) (alike : one.Alike other)
    (agrees : host.Agrees otherHost) :
    (other.forEachChunk visitor gathered otherHost).value =
        (one.forEachChunk visitor gathered host).value ∧
      (one.forEachChunk visitor gathered host).session.Alike
        (other.forEachChunk visitor gathered otherHost).session ∧
      InStep host (one.forEachChunk visitor gathered host).host otherHost
        (other.forEachChunk visitor gathered otherHost).host := by
  have halts : visitor.halt otherHost = visitor.halt host := heedless _ _ agrees.flag
  -- Both walks read the same chunks, so they end in the same way.
  fun_induction Session.forEachChunk visitor gathered one host generalizing other otherHost with
  | case1 gathered one host cause halted =>
      rw [Session.forEachChunk, halts, halted]
      exact ⟨rfl, alike, .refl agrees⟩
  | case2 gathered one host goesOn read error =>
      rename_i failed
      obtain ⟨value, alikeAfter, inStep⟩ := alike.readChunk agrees
      rw [forEachChunk_step _ _ visitor gathered (halts.trans goesOn)]
      simp only [value.trans failed]
      exact ⟨trivial, alikeAfter, inStep⟩
  | case3 gathered one host goesOn read =>
      rename_i empty
      obtain ⟨value, alikeAfter, inStep⟩ := alike.readChunk agrees
      rw [forEachChunk_step _ _ visitor gathered (halts.trans goesOn)]
      simp only [value.trans empty]
      exact ⟨trivial, alikeAfter, inStep⟩
  | case4 gathered one host goesOn read byte more filled last cause =>
      rename_i refuses
      obtain ⟨value, alikeAfter, inStep⟩ := alike.readChunk agrees
      rw [forEachChunk_step _ _ visitor gathered (halts.trans goesOn)]
      simp only [value.trans filled, refuses]
      exact ⟨trivial, alikeAfter, inStep⟩
  | case5 gathered one host goesOn read byte more filled next accepted =>
      rename_i ih
      obtain ⟨value, alikeAfter, inStep⟩ := alike.readChunk agrees
      rw [forEachChunk_step _ _ visitor gathered (halts.trans goesOn)]
      simp only [value.trans filled, accepted]
      obtain ⟨result, alikeEnd, further⟩ := ih alikeAfter inStep.agrees
        (heedless _ _ inStep.agrees.flag)
      exact ⟨result, alikeEnd, inStep.trans further⟩

theorem Going.advance_congr (going : one.Going) (goingToo : other.Going)
    (path : other.path = one.path) (next : other.handle.headers.head? = one.handle.headers.head?)
    (host otherHost : Host) :
    (other.advance otherHost).value = (one.advance host).value := by
  rw [goingToo.advance_value, going.advance_value, upcoming, upcoming]
  cases left : one.handle.headers <;> cases leftToo : other.handle.headers <;>
    simp_all [readError]

/-- Two sessions that wait for their next header, and will be given the same. -/
structure Abreast (one other : Session) : Prop where
  path : other.path = one.path
  number : other.handle.number = one.handle.number
  going : one.Going
  goingToo : other.Going
  next : other.handle.headers.head? = one.handle.headers.head?

theorem Abreast.asked (abreast : one.Abreast other) (agrees : host.Agrees otherHost) :
    InStep host (one.asked host) otherHost (other.asked otherHost) := by
  have called := agrees.record (.call one.handle.number .nextHeader)
  have raised := called.trans (called.agrees.raiseIf one.handle.nextHeader.1.cancels)
  unfold Session.asked Session.call Host.call
  rw [Handle.cancels_congr abreast.next, abreast.number]
  exact raised

theorem Going.advance_host {session : Session} (going : session.Going) (host : Host) :
    ∃ event, (session.advance host).host = (session.asked host).event event := by
  have advances := session.advance_advances host
  generalize session.advance host = outcome at *
  cases advances with
  | exhausted past => exact absurd past going.not_exhausted
  | failed stopped => exact absurd stopped going.not_failed
  | member => exact ⟨_, rfl⟩
  | ended => exact ⟨_, rfl⟩
  | broken => exact ⟨_, rfl⟩

theorem Going.advance_acts {session : Session} (going : session.Going) (host : Host) :
    host.Acts (session.advance host).host
      (.call session.handle.number .nextHeader ::
        raised session.handle.nextHeader.1.cancels) := by
  obtain ⟨event, ends⟩ := going.advance_host host
  rw [ends]
  refine ⟨_, (session.asked_adds host).trans (Host.event_adds ..), ?_⟩
  rw [List.filter_append, List.filter_cons_of_pos rfl, Record.acts_raised]
  exact List.append_nil _

theorem Abreast.advance (abreast : one.Abreast other) (agrees : host.Agrees otherHost) :
    (other.advance otherHost).value = (one.advance host).value ∧
      (∀ header, (one.advance host).value = .ok (some header) →
        (one.advance host).session.Kindred (other.advance otherHost).session) ∧
      InStep host (one.advance host).host otherHost (other.advance otherHost).host := by
  have value :=
    abreast.going.advance_congr abreast.goingToo abreast.path abreast.next host otherHost
  refine ⟨value, fun header moved => ?_, ?_⟩
  · obtain ⟨item, movedTo⟩ := movedTo_of_advance moved
    obtain ⟨itemToo, movedToo⟩ := movedTo_of_advance (value.trans moved)
    have next := abreast.next
    rw [movedTo.left, movedToo.left] at next
    cases next
    constructor
    · rw [Session.path, Session.path, advance_setup, advance_setup]
      exact abreast.path
    · rw [advance_number, advance_number, abreast.number]
    · rw [movedToo.cursor, movedTo.cursor]
    · rw [movedToo.current, movedTo.current]
    · rw [movedToo.data, movedTo.data]
  · obtain ⟨event, ends⟩ := abreast.going.advance_host host
    obtain ⟨eventToo, endsToo⟩ := abreast.goingToo.advance_host otherHost
    rw [ends, endsToo]
    exact (abreast.asked agrees).event event eventToo

end Session

end ArchiveTraversal
