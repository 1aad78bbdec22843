import Mathlib
import ArchiveTraversal.Program
import ArchiveTraversal.Proofs.Decoder.Custody
import ArchiveTraversal.Proofs.Decoder.Cut

/-!
How a traversal comes to a standstill. Past the end of the archive, and after the decoder has
failed, a session gives fixed answers: nothing that is done with it reaches the decoder any more,
until it is closed. Nothing else brings it there. A read before the first member fails and leaves no
trace, and a destination that fails in the middle of a copy leaves the next member to be had as
before.
-/

namespace ArchiveTraversal

namespace Operation

def Stays : Operation → Prop
  | .close | .drop | .abandon => False
  | _ => True

end Operation

namespace Answer

def archiveError? : Answer → Option ArchiveError
  | .failed error => some error
  | .drained _ failure => failure
  | .copied (.error (.archive error)) _ => some error
  | _ => none

end Answer

namespace Session

/-- What there is to see of a session; any other operation is out of place. -/
def inspect (session : Session) : Operation → Answer
  | .format => .format session.formatName
  | .filters => .filters session.filters
  | .entriesSeen => .entriesSeen session.entriesSeen
  | .path => .path session.path
  | .debug => .text session.debug
  | _ => .misplaced

def answerPastEnd (session : Session) : Operation → Answer
  | .advance => .ended
  | .entry => .entry none
  | .read => .chunk []
  | .drain => .drained [] none
  | .copy _ _ => .copied (.ok 0) []
  | .skip => .skipped
  | operation => session.inspect operation

def answerAfterFailure (session : Session) : Operation → Answer
  | .advance => .failed (session.readError .header .aborted)
  | .entry => .entry none
  | .read | .skip => .failed (session.readError .data .aborted)
  | .drain => .drained [] (some (session.readError .data .aborted))
  | .copy _ _ => .copied (.error (.archive (session.readError .data .aborted))) []
  | operation => session.inspect operation

/-- Whatever is done with the session, it answers in the given way, and neither it nor the host is
changed by that. Closing it frees the decoder all the same, and leaves nothing to free again. -/
structure Standstill (session : Session) (host : Host) (answer : Operation → Answer) : Prop where
  fixed : ∀ later, (∀ operation ∈ later, operation.Stays) →
    runProgram later (.inSession session) host = (later.map answer, .inSession session, host)
  freed : (session.close host).2.2.calls = host.calls ++ [(session.handle.number, .free)]
  released : (session.close host).2.1.isOpen = false

def upcoming (session : Session) : Except ArchiveError (Option Header) :=
  match session.handle.headers with
  | [] => .ok none
  | item :: _ =>
      if item.reply.code = 1 then .ok none
      else match item.header with
        | some header =>
            if item.reply.code = 0 then .ok (some header)
            else .error (session.readError .header (item.reply.diagnostic.reason item.reply.code))
        | none => .error (session.readError .header (item.reply.diagnostic.reason item.reply.code))

structure Consults (session : Session) (host : Host) : Prop where
  asked : (session.advance host).host.calls = host.calls ++ [(session.handle.number, .nextHeader)]
  heard : (session.advance host).value = session.upcoming

variable {session : Session} {host : Host}

theorem calls_close (session : Session) (host : Host) :
    (session.close host).2.2.calls = host.calls ++ [(session.handle.number, .free)] := by
  have freed := host.calls_call session.handle.number .free
  exact ((Host.event_quiet ..).calls).trans freed

theorem Going.advance_value (going : session.Going) (host : Host) :
    (session.advance host).value = session.upcoming := by
  have advances := session.advance_advances host
  generalize session.advance host = outcome at *
  unfold upcoming
  cases left : session.handle.headers with
  | nil =>
      cases advances with
      | exhausted past => rfl
      | failed stopped => exact absurd stopped going.not_failed
      | member _ _ given => simp [Decoder.Handle.nextHeader, left] at given
      | ended => rfl
      | broken _ goesOn => simp [Decoder.Handle.nextHeader, left] at goesOn
  | cons item rest =>
      cases advances with
      | exhausted past => exact absurd past going.not_exhausted
      | failed stopped => exact absurd stopped going.not_failed
      | member _ code given =>
          simp only [Decoder.Handle.nextHeader, left] at code given
          obtain ⟨header, own, rfl⟩ := Option.map_eq_some_iff.mp given
          simp [code, own]
      | ended _ code =>
          simp only [Decoder.Handle.nextHeader, left] at code
          simp [code]
      | broken _ goesOn useless told =>
          simp only [Decoder.Handle.nextHeader, left, Option.map_eq_none_iff] at goesOn useless told
          rw [told]
          dsimp only
          rw [if_neg goesOn]
          cases own : item.header with
          | none => rfl
          | some header =>
              have nonzero : item.reply.code ≠ 0 := by
                intro zero
                cases own.symm.trans (useless zero)
              simp only [nonzero, ↓reduceIte]
              rfl

theorem Going.consults (going : session.Going) (host : Host) : session.Consults host := by
  refine ⟨?_, going.advance_value host⟩
  have called := host.calls_call session.handle.number .nextHeader
  have heard : ∀ event, ((session.asked host).event event).calls =
      host.calls ++ [(session.handle.number, .nextHeader)] := fun event =>
    ((Host.event_quiet ..).calls.trans (Host.raiseIf_quiet ..).calls).trans called
  have advances := session.advance_advances host
  generalize session.advance host = outcome at *
  cases advances with
  | exhausted past => exact absurd past going.not_exhausted
  | failed stopped => exact absurd stopped going.not_failed
  | member => exact heard _
  | ended => exact heard _
  | broken => exact heard _

theorem runProgram_of_rote {answer : Operation → Answer} {operations : List Operation}
    (rote : ∀ operation ∈ operations,
      session.perform host operation = ⟨answer operation, .inSession session, host⟩) :
    runProgram operations (.inSession session) host =
      (operations.map answer, .inSession session, host) := by
  induction operations with
  | nil => rfl
  | cons operation rest ih =>
      have first : Position.perform (.inSession session) host operation =
          ⟨answer operation, .inSession session, host⟩ := rote operation List.mem_cons_self
      have others := ih fun later member => rote later (List.mem_cons_of_mem _ member)
      simp only [runProgram, first, others, List.map_cons]

section

variable {Gathered Cause : Type} (visitor : Visitor Gathered Cause) (gathered : Gathered)

theorem forEachChunk_of_empty (goesOn : visitor.halt host = none)
    (read : session.readChunk host = ⟨.ok [], session, host⟩) :
    session.forEachChunk visitor gathered host = ⟨(.complete, gathered), session, host⟩ := by
  rw [session.forEachChunk_step host visitor gathered goesOn]
  simp only [read]

theorem forEachChunk_of_error {error : ArchiveError} (goesOn : visitor.halt host = none)
    (read : session.readChunk host = ⟨.error error, session, host⟩) :
    session.forEachChunk visitor gathered host =
      ⟨(.unreadable error, gathered), session, host⟩ := by
  rw [session.forEachChunk_step host visitor gathered goesOn]
  simp only [read]

end

theorem perform_past_end (past : session.cursor = .exhausted) {operation : Operation}
    (stays : operation.Stays) : session.perform host operation =
      ⟨session.answerPastEnd operation, .inSession session, host⟩ := by
  have read : session.readChunk host = ⟨.ok [], session, host⟩ := by simp only [readChunk, past]
  cases operation with
  | advance => simp only [perform, stay, advance, past, answerPastEnd]
  | entry => simp only [perform, entry, past, answerPastEnd]
  | read => simp only [perform, stay, read, answerPastEnd]
  | drain =>
      have walked := forEachChunk_of_empty collector [] rfl read
      simp only [perform, stay, drain, walked, answerPastEnd, List.reverse_nil]
  | copy sink state =>
      have walked := forEachChunk_of_empty (copier sink.recording) (0, state, []) rfl read
      simp only [perform, stay, copyTo, walked, answerPastEnd]
      rfl
  | skip => simp only [perform, stay, skipEntry, past, answerPastEnd]
  | close => cases stays
  | drop => cases stays
  | abandon => cases stays
  | _ => rfl

theorem perform_after_failure (stopped : session.cursor = .failed) {operation : Operation}
    (stays : operation.Stays) : session.perform host operation =
      ⟨session.answerAfterFailure operation, .inSession session, host⟩ := by
  have read : session.readChunk host =
      ⟨.error (session.readError .data .aborted), session, host⟩ := by
    simp only [readChunk, stopped]
  cases operation with
  | advance => simp only [perform, stay, advance, stopped, answerAfterFailure]
  | entry => simp only [perform, entry, stopped, answerAfterFailure]
  | read => simp only [perform, stay, read, answerAfterFailure]
  | drain =>
      have walked := forEachChunk_of_error collector [] rfl read
      simp only [perform, stay, drain, walked, answerAfterFailure, List.reverse_nil]
  | copy sink state =>
      have walked := forEachChunk_of_error (copier sink.recording) (0, state, []) rfl read
      simp only [perform, stay, copyTo, walked, answerAfterFailure]
      rfl
  | skip => simp only [perform, stay, skipEntry, stopped, answerAfterFailure]
  | close => cases stays
  | drop => cases stays
  | abandon => cases stays
  | _ => rfl

theorem standstill_past_end (past : session.cursor = .exhausted) (host : Host) :
    session.Standstill host session.answerPastEnd := by
  refine ⟨fun later stays => ?_, session.calls_close host, rfl⟩
  exact runProgram_of_rote fun operation member => perform_past_end past (stays operation member)

theorem standstill_after_failure (stopped : session.cursor = .failed) (host : Host) :
    session.Standstill host session.answerAfterFailure := by
  refine ⟨fun later stays => ?_, session.calls_close host, rfl⟩
  exact runProgram_of_rote fun operation member =>
    perform_after_failure stopped (stays operation member)

theorem perform_at_start (fresh : session.cursor = .start) {operation : Operation}
    (stays : operation.Stays) (other : operation ≠ .advance) :
    session.perform host operation =
      ⟨(session.perform host operation).answer, .inSession session, host⟩ := by
  have read : session.readChunk host =
      ⟨.error (session.readError .data .nothingSelected), session, host⟩ := by
    simp only [readChunk, fresh]
  cases operation with
  | advance => exact absurd rfl other
  | read => simp only [perform, stay, read]
  | drain =>
      have walked := forEachChunk_of_error collector [] rfl read
      simp only [perform, stay, drain, walked]
  | copy sink state =>
      have walked := forEachChunk_of_error (copier sink.recording) (0, state, []) rfl read
      simp only [perform, stay, copyTo, walked]
  | skip => simp only [perform, stay, skipEntry, fresh]
  | close => cases stays
  | drop => cases stays
  | abandon => cases stays
  | _ => rfl

theorem readChunk_unreadable {error : ArchiveError} (begun : session.cursor ≠ .start)
    (failed : (session.readChunk host).value = .error error) :
    (session.readChunk host).session.cursor = .failed := by
  have reads := session.readChunk_reads host
  generalize session.readChunk host = outcome at *
  cases reads with
  | start fresh => exact absurd fresh begun
  | exhausted => cases failed
  | failed stopped => exact stopped
  | directory => cases failed
  | chunk => cases failed
  | broken => rfl

theorem readChunk_filled_cursor {byte : UInt8} {more : Bytes}
    (filled : (session.readChunk host).value = .ok (byte :: more)) :
    session.cursor = .onMember ∧ (session.readChunk host).session.cursor = .onMember := by
  have reads := session.readChunk_reads host
  generalize session.readChunk host = outcome at *
  cases reads with
  | start => cases filled
  | exhausted => cases filled
  | failed => cases filled
  | directory => cases filled
  | chunk onData => exact ⟨onData.cursor, onData.cursor⟩
  | broken => cases filled

section

variable {Gathered Cause : Type} {visitor : Visitor Gathered Cause} {gathered : Gathered}

theorem forEachChunk_unreadable {error : ArchiveError} (begun : session.cursor ≠ .start)
    (failed : (session.forEachChunk visitor gathered host).value.1 = .unreadable error) :
    (session.forEachChunk visitor gathered host).session.cursor = .failed := by
  fun_induction forEachChunk visitor gathered session host with
  | case1 => cases failed
  | case2 _ session host _ _ cause unreadable => exact readChunk_unreadable begun unreadable
  | case3 => cases failed
  | case4 => cases failed
  | case5 _ session host _ _ _ _ filled _ _ ih =>
      have stays := (readChunk_filled_cursor filled).2
      apply ih _ failed
      intro fresh
      cases fresh.symm.trans stays

/-- A visitor that never halts a walk can only stop it with a chunk in hand. -/
theorem forEachChunk_stopped {cause : Cause} (goesOn : ∀ host, visitor.halt host = none)
    (stopped : (session.forEachChunk visitor gathered host).value.1 = .stopped cause) :
    session.cursor = .onMember ∧
      (session.forEachChunk visitor gathered host).session.cursor = .onMember := by
  fun_induction forEachChunk visitor gathered session host with
  | case1 _ _ host _ halts => cases (goesOn host).symm.trans halts
  | case2 => cases stopped
  | case3 => cases stopped
  | case4 _ session host _ _ _ _ filled => exact readChunk_filled_cursor filled
  | case5 _ session host _ _ _ _ filled _ _ ih =>
      exact ⟨(readChunk_filled_cursor filled).1, (ih stopped).2⟩

end

theorem perform_ended {operation : Operation}
    (ended : (session.perform host operation).answer = .ended) :
    ∃ after, (session.perform host operation).position = .inSession after ∧
      after.cursor = .exhausted := by
  cases operation with
  | advance =>
      have advances := session.advance_advances host
      simp only [perform, stay] at ended ⊢
      generalize session.advance host = outcome at *
      cases advances with
      | exhausted past => exact ⟨_, rfl, past⟩
      | failed => cases ended
      | member => cases ended
      | ended => exact ⟨_, rfl, rfl⟩
      | broken => cases ended
  | read =>
      simp only [perform, stay] at ended
      split at ended <;> cases ended
  | skip =>
      simp only [perform, stay] at ended
      split at ended <;> cases ended
  | _ => cases ended

theorem readChunk_fatal {error : ArchiveError}
    (failed : (session.readChunk host).value = .error error) :
    error.reason = .nothingSelected ∨ (session.readChunk host).session.cursor = .failed := by
  by_cases fresh : session.cursor = .start
  · simp only [readChunk, fresh] at failed
    cases failed
    exact .inl rfl
  · exact .inr (readChunk_unreadable fresh failed)

theorem forEachChunk_fatal {Gathered Cause : Type} {visitor : Visitor Gathered Cause}
    {gathered : Gathered} {error : ArchiveError} (goesOn : visitor.halt host = none)
    (failed : (session.forEachChunk visitor gathered host).value.1 = .unreadable error) :
    error.reason = .nothingSelected ∨
      (session.forEachChunk visitor gathered host).session.cursor = .failed := by
  by_cases fresh : session.cursor = .start
  · have read : session.readChunk host =
        ⟨.error (session.readError .data .nothingSelected), session, host⟩ := by
      simp only [readChunk, fresh]
    rw [forEachChunk_of_error visitor gathered goesOn read] at failed
    cases failed
    exact .inl rfl
  · exact .inr (forEachChunk_unreadable fresh failed)

/-- A failure of the archive is for good, unless there was no member yet to read from. -/
theorem perform_failed {operation : Operation} {error : ArchiveError}
    (failed : (session.perform host operation).answer.archiveError? = some error) :
    error.reason = .nothingSelected ∨
      ∃ after, (session.perform host operation).position = .inSession after ∧
        after.cursor = .failed := by
  -- Every failure but that of reading before the first member leaves the session stopped.
  cases operation with
  | advance =>
      have advances := session.advance_advances host
      simp only [perform, stay] at failed ⊢
      generalize session.advance host = outcome at *
      cases advances with
      | exhausted => cases failed
      | failed stopped => exact .inr ⟨_, rfl, stopped⟩
      | member => cases failed
      | ended => cases failed
      | broken => exact .inr ⟨_, rfl, rfl⟩
  | read =>
      simp only [perform, stay] at failed ⊢
      split at failed
      · cases failed
      · rename_i unreadable
        cases failed
        exact (readChunk_fatal unreadable).imp_right fun stopped => ⟨_, rfl, stopped⟩
  | drain =>
      simp only [perform, stay, drain, Answer.archiveError?] at failed ⊢
      split at failed
      · cases failed
      · rename_i unreadable
        cases failed
        exact (forEachChunk_fatal rfl unreadable).imp_right fun stopped => ⟨_, rfl, stopped⟩
      · rename_i cause _
        cases cause
  | copy sink state =>
      simp only [perform, stay, copyTo] at failed ⊢
      split at failed
      · cases failed
      · rename_i unreadable
        cases failed
        exact (forEachChunk_fatal rfl unreadable).imp_right fun stopped => ⟨_, rfl, stopped⟩
      · cases failed
  | skip =>
      have skips := session.skipEntry_skips host
      simp only [perform, stay] at failed ⊢
      generalize session.skipEntry host = outcome at *
      cases skips with
      | idle => cases failed
      | failed stopped => exact .inr ⟨_, rfl, stopped⟩
      | skipped => cases failed
      | broken => exact .inr ⟨_, rfl, rfl⟩
  | _ => cases failed

theorem perform_cut_short {operation : Operation} {error : IoError} {written : Bytes}
    (cut : (session.perform host operation).answer = .copied (.error (.io error)) written) :
    ∃ after, (session.perform host operation).position = .inSession after ∧ after.Going ∧
      after.upcoming = session.upcoming := by
  cases operation with
  | advance =>
      simp only [perform, stay] at cut
      split at cut <;> cases cut
  | read =>
      simp only [perform, stay] at cut
      split at cut <;> cases cut
  | skip =>
      simp only [perform, stay] at cut
      split at cut <;> cases cut
  | copy sink state =>
      have headers := session.forEachChunk_headers (copier sink.recording) (0, state, []) host
      have setup := session.forEachChunk_setup (copier sink.recording) (0, state, []) host
      simp only [perform, stay, copyTo] at cut ⊢
      split at cut
      · cases cut
      · cases cut
      · rename_i stopped
        refine ⟨_, rfl, .inr (forEachChunk_stopped (fun _ => rfl) stopped).2, ?_⟩
        simp only [upcoming, headers, readError, path, setup]
  | _ => cases cut

theorem of_openSession {reader : Reader} {before : Host}
    (opened : reader.openSession before = (.opened session, host)) : session.cursor = .start := by
  unfold Reader.openSession at opened
  dsimp only at opened
  split at opened
  · cases opened
  · cases opened
    rfl

end Session

/-- A session that reports the end of the archive is past it for good, and one that fails because of
its decoder fails for good. It is neither for being read from before its first member, nor for a
copy that its destination cuts short: to advance is then to ask the decoder, as if there had been no
such attempt. -/
theorem traversal_standstill (session : Session) (host : Host) (operation : Operation) :
    let done := session.perform host operation
    (done.answer = .ended → ∃ after, done.position = .inSession after ∧
      after.Standstill done.host after.answerPastEnd) ∧
    (∀ error, done.answer.archiveError? = some error → error.reason ≠ .nothingSelected →
      ∃ after, done.position = .inSession after ∧
        after.Standstill done.host after.answerAfterFailure) ∧
    Reason.aborted.text = "Traversal aborted by an earlier failure" ∧
    (∀ reader before, Reader.openSession reader before = (.opened session, host) →
      (session.perform host .read).answer = .failed (session.readError .data .nothingSelected) ∧
      (∀ early, (∀ earlier ∈ early, earlier.Stays ∧ earlier ≠ .advance) →
        (runProgram early (.inSession session) host).2 = (.inSession session, host)) ∧
      session.Consults host) ∧
    ∀ error written, done.answer = .copied (.error (.io error)) written →
      ∃ after, done.position = .inSession after ∧ after.Consults done.host ∧
        after.upcoming = session.upcoming := by
  intro done
  refine ⟨?_, ?_, rfl, ?_, ?_⟩
  · intro ended
    obtain ⟨after, position, past⟩ := Session.perform_ended ended
    exact ⟨after, position, Session.standstill_past_end past done.host⟩
  · intro error failed selected
    obtain ⟨after, position, stopped⟩ := (Session.perform_failed failed).resolve_left selected
    exact ⟨after, position, Session.standstill_after_failure stopped done.host⟩
  · intro reader before opened
    have fresh := Session.of_openSession opened
    refine ⟨?_, ?_, Session.Going.consults (.inl fresh) host⟩
    · simp only [Session.perform, Session.stay, Session.readChunk, fresh]
    · intro early quiet
      rw [Session.runProgram_of_rote fun earlier member =>
        Session.perform_at_start fresh (quiet earlier member).1 (quiet earlier member).2]
  · intro error written cut
    obtain ⟨after, position, going, same⟩ := Session.perform_cut_short cut
    exact ⟨after, position, going.consults done.host, same⟩

/-- A read fails on the first of two members, and the second is not to be had any more. -/
theorem failed_read_is_for_good :
    let header : Header := ⟨some [0x61], none, 3, true, 0o100644⟩
    let script : Decoder.Script :=
      { headers := [{ header := some header, data := [{ serving := .raw (-30) [] }] },
          { header := some header }] }
    let session : Session := { setup := ⟨[0x78], {}⟩, buffer := [], handle := .ofScript 0 script }
    let moved := session.advance {}
    let done := moved.session.perform moved.host .read
    let aborted (stage : ReadStage) : ArchiveError := .reading [0x78] stage .aborted
    done.answer = .failed (.reading [0x78] .data (.status (-30))) ∧
      (runProgram [.advance, .read, .copy Sink.unlimited (), .skip, .entry, .entriesSeen]
          done.position done.host).1 =
        [.failed (aborted .header), .failed (aborted .data),
          .copied (.error (.archive (aborted .data))) [], .failed (aborted .data), .entry none,
          .entriesSeen 1] := by
  intro header script session moved done aborted
  have failed : done.answer = .failed (.reading [0x78] .data (.status (-30))) := by cbv
  obtain ⟨_, fatal, _⟩ := traversal_standstill moved.session moved.host .read
  obtain ⟨after, position, still⟩ :=
    fatal (.reading [0x78] .data (.status (-30))) (by rw [failed]; rfl) (by decide)
  refine ⟨failed, ?_⟩
  have there : done.position = .inSession after := position
  rw [there, still.fixed _ (by simp [Operation.Stays])]
  cases position
  cbv

end ArchiveTraversal
