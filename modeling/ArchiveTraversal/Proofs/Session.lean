import ArchiveTraversal.Chunks

/-!
What a session does when it is asked for the next member, for a chunk, or to skip the rest of a
member. Each operation is inverted once: it does one of a few things, each under its own condition,
and whatever is proved about the operation is proved about those.
-/

namespace ArchiveTraversal

namespace Session

/-- The session has neither come to the end nor failed. -/
def Going (session : Session) : Prop := session.cursor = .start ∨ session.cursor = .onMember

/-- The session stands on a member that has data to ask for. -/
structure OnData (session : Session) : Prop where
  cursor : session.cursor = .onMember
  regular : session.current.any (·.header.isDirectory) = false

theorem Going.not_exhausted {session : Session} (going : session.Going) : session.cursor ≠ .exhausted := by
  rcases going with start | onMember
  · simp [start]
  · simp [onMember]

theorem Going.not_failed {session : Session} (going : session.Going) : session.cursor ≠ .failed := by
  rcases going with start | onMember
  · simp [start]
  · simp [onMember]

def asked (session : Session) (host : Host) : Host :=
  (session.call host .nextHeader).raiseIf session.handle.nextHeader.1.cancels

def reply (session : Session) : Decoder.DataReply :=
  (session.handle.readData session.setup.options.chunkSize).1

def fetched (session : Session) (host : Host) : Host :=
  (session.call host (.readData session.setup.options.chunkSize)).raiseIf session.reply.cancels

/-- The session after a request for data, which fills the front of the buffer. -/
def filled (session : Session) (cursor : Cursor) : Session :=
  { session with
    handle := (session.handle.readData session.setup.options.chunkSize).2
    buffer := session.reply.filled ++ session.buffer.drop session.reply.filled.length
    cursor := cursor }

variable (session : Session) (host : Host)

inductive Advances : Outcome (Except ArchiveError (Option Header)) → Prop
  | exhausted (past : session.cursor = .exhausted) : Advances ⟨.ok none, session, host⟩
  | failed (stopped : session.cursor = .failed) :
      Advances ⟨.error (session.readError .header .aborted), session, host⟩
  | member {lent : Decoder.LentHeader} (going : session.Going)
      (code : session.handle.nextHeader.1.code = 0)
      (given : session.handle.nextHeader.1.lent = some lent) :
      Advances ⟨.ok (some lent.header),
        { session with
          handle := session.handle.nextHeader.2
          current := some lent
          cursor := .onMember
          entriesSeen := session.entriesSeen + 1 },
        (session.asked host).event
          (.headerRead (session.entriesSeen + 1) lent.header.filename lent.header.size)⟩
  | ended (going : session.Going) (code : session.handle.nextHeader.1.code = 1) :
      Advances ⟨.ok none,
        { session with
          handle := session.handle.nextHeader.2, current := none, cursor := .exhausted },
        (session.asked host).event (.ended session.path session.entriesSeen)⟩
  | broken (going : session.Going) (goesOn : session.handle.nextHeader.1.code ≠ 1)
      (useless : session.handle.nextHeader.1.code = 0 → session.handle.nextHeader.1.lent = none)
      {reason : Reason}
      (told : reason = session.handle.nextHeader.2.reason session.handle.nextHeader.1.code) :
      Advances ⟨.error (session.readError .header reason),
        { session with
          handle := session.handle.nextHeader.2, current := none, cursor := .failed },
        (session.asked host).event (.headerFailed session.path
          (Status.ofCode session.handle.nextHeader.1.code) reason)⟩

theorem advance_advances : session.Advances host (session.advance host) := by
  unfold advance
  split
  · rename_i past
    exact .exhausted past
  · rename_i stopped
    exact .failed stopped
  all_goals
    rename_i cursor
    have going : session.Going := by simp [Going, cursor]
    dsimp only
    split
    · rename_i code given
      exact .member going ((Status.ofCode_eq_ok_iff _).mp code) given
    · rename_i code
      exact .ended going ((Status.ofCode_eq_endOfArchive_iff _).mp code)
    · rename_i notEnd notMember
      apply Advances.broken going
      · intro code
        exact notEnd ((Status.ofCode_eq_endOfArchive_iff _).mpr code)
      · intro code
        apply Option.eq_none_iff_forall_ne_some.mpr
        intro lent given
        exact notMember lent ((Status.ofCode_eq_ok_iff _).mpr code) given
      · rfl

inductive Reads : Outcome (Except ArchiveError Bytes) → Prop
  | start (fresh : session.cursor = .start) :
      Reads ⟨.error (session.readError .data .nothingSelected), session, host⟩
  | exhausted (past : session.cursor = .exhausted) : Reads ⟨.ok [], session, host⟩
  | failed (stopped : session.cursor = .failed) :
      Reads ⟨.error (session.readError .data .aborted), session, host⟩
  | directory (onMember : session.cursor = .onMember)
      (is : session.current.any (·.header.isDirectory) = true) : Reads ⟨.ok [], session, host⟩
  | chunk (onData : session.OnData) (enough : 0 ≤ session.reply.count) :
      Reads ⟨.ok session.reply.filled, session.filled session.cursor,
        (session.fetched host).event (.chunkRead session.reply.filled.length)⟩
  | broken (onData : session.OnData) (negative : session.reply.count < 0) {reason : Reason}
      (told : reason = (session.filled .failed).handle.reason (dataCode session.reply.count)) :
      Reads ⟨.error (session.readError .data reason), session.filled .failed,
        (session.fetched host).event (.dataFailed session.path reason)⟩

theorem readChunk_reads : session.Reads host (session.readChunk host) := by
  have length := session.handle.length_readData session.setup.options.chunkSize
  unfold readChunk
  split
  · rename_i past
    exact .exhausted past
  · rename_i fresh
    exact .start fresh
  · rename_i stopped
    exact .failed stopped
  · rename_i onMember
    split
    · rename_i is
      exact .directory onMember is
    · rename_i regular
      have onData : session.OnData := ⟨onMember, by simpa using regular⟩
      dsimp only
      split
      · rename_i negative
        exact .broken onData negative rfl
      · rename_i enough
        rw [← length, List.take_left]
        exact .chunk onData (Int.not_lt.mp enough)

inductive Skips : Outcome (Except ArchiveError Unit) → Prop
  | idle (off : session.cursor = .start ∨ session.cursor = .exhausted) :
      Skips ⟨.ok (), session, host⟩
  | failed (stopped : session.cursor = .failed) :
      Skips ⟨.error (session.readError .data .aborted), session, host⟩
  | skipped (onMember : session.cursor = .onMember) (code : session.handle.skipData.1 = 0) :
      Skips ⟨.ok (), { session with handle := session.handle.skipData.2 },
        session.call host .skipData⟩
  | broken (onMember : session.cursor = .onMember) (code : session.handle.skipData.1 ≠ 0)
      {reason : Reason} (told : reason = session.handle.skipData.2.reason session.handle.skipData.1) :
      Skips ⟨.error (session.readError .data reason),
        { session with handle := session.handle.skipData.2, cursor := .failed },
        session.call host .skipData⟩

theorem skipEntry_skips : session.Skips host (session.skipEntry host) := by
  unfold skipEntry
  split
  · rename_i fresh
    exact .idle (.inl fresh)
  · rename_i past
    exact .idle (.inr past)
  · rename_i stopped
    exact .failed stopped
  · rename_i onMember
    dsimp only
    split
    · rename_i code
      exact .skipped onMember ((Status.ofCode_eq_ok_iff _).mp code)
    · rename_i code
      apply Skips.broken onMember
      · intro zero
        exact code ((Status.ofCode_eq_ok_iff _).mpr zero)
      · rfl

variable {session}

theorem OnData.readChunk_eq (onData : session.OnData) (host : Host) :
    session.readChunk host =
      if session.reply.count < 0 then
        let reason := (session.filled .failed).handle.reason (dataCode session.reply.count)
        ⟨.error (session.readError .data reason), session.filled .failed,
          (session.fetched host).event (.dataFailed session.path reason)⟩
      else
        ⟨.ok session.reply.filled, session.filled .onMember,
          (session.fetched host).event (.chunkRead session.reply.filled.length)⟩ := by
  have reads := session.readChunk_reads host
  generalize session.readChunk host = outcome at *
  cases reads with
  | start fresh => cases onData.cursor.symm.trans fresh
  | exhausted past => cases onData.cursor.symm.trans past
  | failed stopped => cases onData.cursor.symm.trans stopped
  | directory _ is => cases onData.regular.symm.trans is
  | chunk _ enough => rw [if_neg (Int.not_lt.mpr enough), onData.cursor]
  | broken _ negative told => rw [if_pos negative, told]

def dry (session : Session) : Except ArchiveError Bytes :=
  match session.cursor with
  | .start => .error (session.readError .data .nothingSelected)
  | .failed => .error (session.readError .data .aborted)
  | .exhausted | .onMember => .ok []

theorem readChunk_dry (off : ¬ session.OnData) (host : Host) :
    session.readChunk host = ⟨session.dry, session, host⟩ := by
  have reads := session.readChunk_reads host
  generalize session.readChunk host = outcome at *
  cases reads with
  | start fresh => simp only [dry, fresh]
  | exhausted past => simp only [dry, past]
  | failed stopped => simp only [dry, stopped]
  | directory onMember => simp only [dry, onMember]
  | chunk onData => exact absurd onData off
  | broken onData => exact absurd onData off

end Session

end ArchiveTraversal
