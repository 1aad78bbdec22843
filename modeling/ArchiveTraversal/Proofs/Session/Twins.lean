import ArchiveTraversal.Proofs.Session.Traversal

/-!
Sessions on different handles. Nothing that a session gives depends on the number of its handle, on
what is left in its buffer, or on anything the host has recorded. So two sessions that differ in
these alone do the same, each on its own handle and on its own host.
-/

namespace ArchiveTraversal

open Decoder Host

/-- Where a run begins: the number of the next handle, and the calls made so far. -/
structure Origin where
  number : Nat
  calls : List (Nat × Call)

def Origin.with (origin : Origin) (made : List (Nat × Call)) : List (Nat × Call) :=
  origin.calls ++ made.map fun call => (origin.number + call.1, call.2)

theorem Origin.with_concat (origin : Origin) (made : List (Nat × Call)) (index : Nat)
    (call : Call) :
    origin.with (made ++ [(index, call)]) =
      origin.with made ++ [(origin.number + index, call)] := by
  simp [Origin.with]

/-- The same has been done on two hosts since their origins, and the same can be opened on them so
many times. -/
structure Host.Parallel (here there : Origin) (count : Nat) (one other : Host) : Prop where
  tree : other.tree = one.tree
  decoders : other.decoders.take count = one.decoders.take count
  allocated : ∃ index, one.allocated = here.number + index ∧ other.allocated = there.number + index
  calls : ∃ made, one.calls = here.with made ∧ other.calls = there.with made

section

variable {here there : Origin} {count : Nat} {host otherHost : Host}

namespace Host

theorem Parallel.unseen {after otherAfter : Host}
    (parallel : Parallel here there count host otherHost)
    (kept : host.Extends after) (quiet : host.Quiet after) (keptToo : otherHost.Extends otherAfter)
    (quietToo : otherHost.Quiet otherAfter) : Parallel here there count after otherAfter := by
  constructor
  · rw [kept.tree, keptToo.tree, parallel.tree]
  · rw [kept.decoders, keptToo.decoders, parallel.decoders]
  · rw [kept.allocated, keptToo.allocated]
    exact parallel.allocated
  · rw [quiet.calls, quietToo.calls]
    exact parallel.calls

theorem Parallel.event (parallel : Parallel here there count host otherHost)
    (event otherEvent : Event) :
    Parallel here there count (host.event event) (otherHost.event otherEvent) :=
  parallel.unseen (event_extends ..) (event_quiet ..) (event_extends ..) (event_quiet ..)

theorem Parallel.raiseIf (parallel : Parallel here there count host otherHost)
    (cancels : Bool) :
    Parallel here there count (host.raiseIf cancels) (otherHost.raiseIf cancels) :=
  parallel.unseen (raiseIf_extends ..) (raiseIf_quiet ..) (raiseIf_extends ..) (raiseIf_quiet ..)

theorem Parallel.call (parallel : Parallel here there count host otherHost) (index : Nat)
    (call : Call) :
    Parallel here there count (host.call (here.number + index) call)
      (otherHost.call (there.number + index) call) := by
  obtain ⟨made, calls, callsToo⟩ := parallel.calls
  refine ⟨parallel.tree, parallel.decoders, parallel.allocated, made ++ [(index, call)], ?_, ?_⟩
  · rw [calls_call, calls, Origin.with_concat]
  · rw [calls_call, callsToo, Origin.with_concat]

end Host

namespace Decoder.Handle

def renumbered (number : Nat) (handle : Handle) : Handle := { handle with number := number }

variable (number : Nat) (handle : Handle)

theorem nextHeader_renumbered : (handle.renumbered number).nextHeader =
    (handle.nextHeader.1, handle.nextHeader.2.renumbered number) := by
  unfold nextHeader
  cases left : handle.headers <;> simp [renumbered, left]

theorem filterNames_renumbered : (handle.renumbered number).filterNames = handle.filterNames := by
  simp only [filterNames, filterCount, renumbered]

theorem readData_renumbered (capacity : Nat) : (handle.renumbered number).readData capacity =
    ((handle.readData capacity).1, (handle.readData capacity).2.renumbered number) := by
  unfold readData
  cases data : handle.data with
  | nil => simp [renumbered, data]
  | cons item rest =>
      cases serving : item.serving with
      | raw count bytes => simp [renumbered, data, serving]
      | content bytes =>
          cases remaining : bytes.drop capacity with
          | nil => simp [renumbered, data, serving, remaining]
          | cons byte more => simp [renumbered, data, serving, remaining]

end Decoder.Handle

namespace Session

theorem Going.advance_handle {session : Session} (going : session.Going) (host : Host) :
    (session.advance host).session.handle = session.handle.nextHeader.2 := by
  have advances := session.advance_advances host
  generalize session.advance host = outcome at *
  cases advances with
  | exhausted past => exact absurd past going.not_exhausted
  | failed stopped => exact absurd stopped going.not_failed
  | member => rfl
  | ended => rfl
  | broken => rfl

theorem Going.advance_current {session : Session} (going : session.Going) (host : Host) :
    (session.advance host).session.current = match (session.advance host).value with
      | .ok (some _) => session.handle.nextHeader.1.lent
      | _ => none := by
  have advances := session.advance_advances host
  generalize session.advance host = outcome at *
  cases advances with
  | exhausted past => exact absurd past going.not_exhausted
  | failed stopped => exact absurd stopped going.not_failed
  | member _ _ given => exact given.symm
  | ended => rfl
  | broken => rfl

/-- Two sessions that differ in the number of the handle and in the buffer alone. -/
structure Twin (here there : Origin) (one other : Session) : Prop where
  setup : other.setup = one.setup
  handle : other.handle = one.handle.renumbered other.handle.number
  current : other.current = one.current
  cursor : other.cursor = one.cursor
  entriesSeen : other.entriesSeen = one.entriesSeen
  number : ∃ index, one.handle.number = here.number + index ∧
    other.handle.number = there.number + index

variable {one other : Session}

theorem Twin.keepsPace (twin : Twin here there one other) : one.KeepsPace other := by
  constructor
  · rw [Session.path, Session.path, twin.setup]
  · exact twin.cursor
  · rw [twin.handle]
    rfl
  · exact twin.entriesSeen

theorem Twin.call (twin : Twin here there one other)
    (parallel : Parallel here there count host otherHost) (call : Call) :
    Parallel here there count (one.call host call) (other.call otherHost call) := by
  obtain ⟨index, number, numberToo⟩ := twin.number
  unfold Session.call
  rw [number, numberToo]
  exact parallel.call index call

structure Same {Value : Type} (here there : Origin) (count : Nat)
    (outcome otherOutcome : Outcome Value) : Prop where
  value : otherOutcome.value = outcome.value
  twin : Twin here there outcome.session otherOutcome.session
  parallel : Host.Parallel here there count outcome.host otherOutcome.host

theorem Twin.advance (twin : Twin here there one other)
    (parallel : Parallel here there count host otherHost) :
    Same here there count (one.advance host) (other.advance otherHost) := by
  have pace := twin.keepsPace
  have value := pace.advance_value host otherHost
  by_cases going : one.Going
  · have goingToo := pace.going.mpr going
    have header := one.handle.nextHeader_renumbered other.handle.number
    rw [← twin.handle] at header
    obtain ⟨event, ends⟩ := going.advance_host host
    obtain ⟨eventToo, endsToo⟩ := goingToo.advance_host otherHost
    refine ⟨value, ⟨?_, ?_, ?_, ?_, ?_, ?_⟩, ?_⟩
    · rw [advance_setup, advance_setup, twin.setup]
    · rw [going.advance_handle, goingToo.advance_handle, header]
      rfl
    · rw [going.advance_current, goingToo.advance_current, value, header]
    · exact (pace.advance host otherHost).cursor
    · exact (pace.advance host otherHost).entriesSeen
    · rw [advance_number, advance_number]
      exact twin.number
    · rw [ends, endsToo]
      unfold asked
      rw [header]
      exact ((twin.call parallel .nextHeader).raiseIf _).event _ _
  · have goingToo : ¬ other.Going := fun there => going (pace.going.mp there)
    obtain ⟨session, same⟩ := advance_off going host
    obtain ⟨sessionToo, sameToo⟩ := advance_off goingToo otherHost
    refine ⟨value, ?_, ?_⟩
    · rw [session, sessionToo]
      exact twin
    · rw [same, sameToo]
      exact parallel

theorem Twin.onData (twin : Twin here there one other) : other.OnData ↔ one.OnData := by
  constructor
  · rintro ⟨cursor, regular⟩
    exact ⟨twin.cursor.symm.trans cursor, twin.current ▸ regular⟩
  · rintro ⟨cursor, regular⟩
    exact ⟨twin.cursor.trans cursor, twin.current.symm ▸ regular⟩

theorem Twin.readData (twin : Twin here there one other) :
    other.handle.readData other.setup.options.chunkSize =
      (one.reply, (one.handle.readData one.setup.options.chunkSize).2.renumbered
        other.handle.number) := by
  have answer := one.handle.readData_renumbered other.handle.number one.setup.options.chunkSize
  rw [← twin.handle] at answer
  rw [twin.setup]
  exact answer

theorem Twin.reply (twin : Twin here there one other) : other.reply = one.reply := by
  rw [Session.reply, twin.readData]

theorem Twin.filled (twin : Twin here there one other) (cursor : Cursor) :
    Twin here there (one.filled cursor) (other.filled cursor) := by
  obtain ⟨index, number, numberToo⟩ := twin.number
  have keeps := (one.handle.readData_fields one.setup.options.chunkSize).1
  constructor
  · exact twin.setup
  · simp only [Session.filled, twin.readData]
    rfl
  · exact twin.current
  · rfl
  · exact twin.entriesSeen
  · refine ⟨index, keeps.trans number, ?_⟩
    simp only [Session.filled, twin.readData]
    exact numberToo

theorem Twin.fetched (twin : Twin here there one other)
    (parallel : Parallel here there count host otherHost) :
    Parallel here there count (one.fetched host) (other.fetched otherHost) := by
  unfold Session.fetched
  rw [twin.reply, twin.setup]
  exact (twin.call parallel _).raiseIf _

theorem Twin.readChunk (twin : Twin here there one other)
    (parallel : Parallel here there count host otherHost) :
    Same here there count (one.readChunk host) (other.readChunk otherHost) := by
  by_cases onData : one.OnData
  · rw [onData.readChunk_eq, (twin.onData.mpr onData).readChunk_eq, twin.reply]
    split
    · have reason : ∀ code, (other.filled .failed).handle.reason code =
          (one.filled .failed).handle.reason code := by
        intro code
        rw [(twin.filled .failed).handle]
        rfl
      refine ⟨?_, twin.filled .failed, (twin.fetched parallel).event _ _⟩
      simp only [readError, twin.keepsPace.path, reason]
    · exact ⟨rfl, twin.filled .onMember, (twin.fetched parallel).event _ _⟩
  · have off : ¬ other.OnData := fun there => onData (twin.onData.mp there)
    rw [readChunk_dry onData, readChunk_dry off]
    refine ⟨?_, twin, parallel⟩
    simp only [dry, twin.cursor, readError, twin.keepsPace.path]

theorem Twin.forEachChunk {Gathered Cause : Type} (visitor : Visitor Gathered Cause)
    (goesOn : ∀ host, visitor.halt host = none) (gathered : Gathered)
    (twin : Twin here there one other) (parallel : Parallel here there count host otherHost) :
    Same here there count (one.forEachChunk visitor gathered host)
      (other.forEachChunk visitor gathered otherHost) := by
  -- Both walks read the same chunks, so they end in the same way.
  fun_induction Session.forEachChunk visitor gathered one host generalizing other otherHost with
  | case1 _ _ host _ halts => cases (goesOn host).symm.trans halts
  | case2 gathered one host _ read error =>
      rename_i failed
      have same := twin.readChunk parallel
      rw [forEachChunk_step _ _ visitor gathered (goesOn otherHost)]
      simp only [same.value.trans failed]
      exact ⟨rfl, same.twin, same.parallel⟩
  | case3 gathered one host _ read =>
      rename_i empty
      have same := twin.readChunk parallel
      rw [forEachChunk_step _ _ visitor gathered (goesOn otherHost)]
      simp only [same.value.trans empty]
      exact ⟨rfl, same.twin, same.parallel⟩
  | case4 gathered one host _ read byte more filled last cause =>
      rename_i refuses
      have same := twin.readChunk parallel
      rw [forEachChunk_step _ _ visitor gathered (goesOn otherHost)]
      simp only [same.value.trans filled, refuses]
      exact ⟨rfl, same.twin, same.parallel⟩
  | case5 gathered one host _ read byte more filled next accepted =>
      rename_i ih
      have same := twin.readChunk parallel
      rw [forEachChunk_step _ _ visitor gathered (goesOn otherHost)]
      simp only [same.value.trans filled, accepted]
      exact ih same.twin same.parallel

theorem Twin.skipEntry (twin : Twin here there one other)
    (parallel : Parallel here there count host otherHost) :
    Same here there count (one.skipEntry host) (other.skipEntry otherHost) := by
  have answer : other.handle.skipData =
      (one.handle.skipData.1, one.handle.skipData.2.renumbered other.handle.number) := by
    rw [twin.handle]
    rfl
  have skipped : ∀ cursor, Twin here there
      { one with handle := one.handle.skipData.2, cursor := cursor }
      { other with
        handle := one.handle.skipData.2.renumbered other.handle.number, cursor := cursor } :=
    fun _ => ⟨twin.setup, rfl, twin.current, rfl, twin.entriesSeen, twin.number⟩
  have called := twin.call parallel .skipData
  have path : other.path = one.path := twin.keepsPace.path
  unfold Session.skipEntry
  rw [twin.cursor]
  cases cursor : one.cursor with
  | start => exact ⟨rfl, twin, parallel⟩
  | exhausted => exact ⟨rfl, twin, parallel⟩
  | failed =>
      refine ⟨?_, twin, parallel⟩
      simp only [readError, path]
  | onMember =>
      dsimp only
      rw [answer]
      split
      · exact ⟨rfl, skipped .onMember, called⟩
      · refine ⟨?_, skipped .failed, called⟩
        simp only [readError, path]
        rfl

theorem Twin.close (twin : Twin here there one other)
    (parallel : Parallel here there count host otherHost) :
    (other.close otherHost).1 = (one.close host).1 ∧
      Parallel here there count (one.close host).2.2 (other.close otherHost).2.2 := by
  have script : other.handle.script = one.handle.script := by
    rw [twin.handle]
    rfl
  constructor
  · simp only [Session.close, script]
  · exact (twin.call parallel .free).event _ _

end Session
end
end ArchiveTraversal
