import ArchiveTraversal.Proofs.Session.Arrival

/-!
What an operation leaves of a session. Only a request for the next member moves it on, and the
decoder's answer to that tells where to. Every other operation at most uses up data of the member
that the session stands on; if the decoder then fails, the session stops.
-/

namespace ArchiveTraversal

open Decoder

/-- The error is due to the decoder, when it was asked for data or to skip it. -/
def ArchiveError.isLoss : ArchiveError → Bool
  | .reading _ .data .nothingSelected | .reading _ .data .aborted => false
  | .reading _ .data _ => true
  | _ => false

def thrown? {Value : Type} : Except ArchiveError Value → Option ArchiveError
  | .ok _ => none
  | .error error => some error

def Walk.failure? {Cause : Type} : Walk Cause → Option ArchiveError
  | .unreadable error => some error
  | _ => none

namespace Answer

def losesData (answer : Answer) : Bool := answer.archiveError?.any ArchiveError.isLoss

def member? : Answer → Option Header
  | .member header => some header
  | _ => none

end Answer

theorem Decoder.Handle.isLoss_reason (path : Path) (handle : Handle) (code : Int) :
    (ArchiveError.reading path .data (handle.reason code)).isLoss = true := by
  unfold Handle.reason Diagnostic.reason
  split
  · rfl
  · split <;> rfl

theorem Decoder.Handle.readData_spends (handle : Handle) (capacity : Nat) :
    ∃ data diagnostic, (handle.readData capacity).2 =
      { handle with data := data, diagnostic := diagnostic } := by
  have serves := handle.readData_serves capacity
  generalize handle.readData capacity = read at *
  cases serves <;> exact ⟨_, _, rfl⟩

namespace Session

variable {session : Session} {host : Host}

inductive Draws (before : Session) : Option ArchiveError → Session → Prop
  | served {failure : Option ArchiveError} (data : List DataItem) (diagnostic : Diagnostic)
      (buffer : Bytes) (harmless : failure.any ArchiveError.isLoss = false) :
      Draws before failure { before with
        buffer := buffer
        handle := { before.handle with data := data, diagnostic := diagnostic } }
  | lost {error : ArchiveError} (data : List DataItem) (diagnostic : Diagnostic) (buffer : Bytes)
      (onMember : before.cursor = .onMember) (loss : error.isLoss = true) :
      Draws before (some error) { before with
        buffer := buffer
        handle := { before.handle with data := data, diagnostic := diagnostic }
        cursor := .failed }

theorem Draws.refl (session : Session) {failure : Option ArchiveError}
    (harmless : failure.any ArchiveError.isLoss = false) : session.Draws failure session :=
  .served session.handle.data session.handle.diagnostic session.buffer harmless

theorem Draws.trans {before between after : Session} {failure : Option ArchiveError}
    (first : before.Draws none between) (second : between.Draws failure after) :
    before.Draws failure after := by
  cases first with
  | served =>
      cases second with
      | served data diagnostic buffer harmless => exact .served data diagnostic buffer harmless
      | lost data diagnostic buffer onMember loss =>
          exact .lost data diagnostic buffer onMember loss

theorem Draws.setup {before after : Session} {failure : Option ArchiveError}
    (draws : before.Draws failure after) : after.setup = before.setup := by
  cases draws <;> rfl

theorem readChunk_draws (session : Session) (host : Host) :
    session.Draws (thrown? (session.readChunk host).value) (session.readChunk host).session := by
  obtain ⟨data, diagnostic, spent⟩ :=
    session.handle.readData_spends session.setup.options.chunkSize
  have reads := session.readChunk_reads host
  generalize session.readChunk host = outcome at *
  cases reads with
  | start => exact .refl session rfl
  | exhausted => exact .refl session rfl
  | failed => exact .refl session rfl
  | directory => exact .refl session rfl
  | chunk =>
      unfold filled
      rw [spent]
      exact .served data diagnostic _ rfl
  | broken onData _ told =>
      have loss := (session.filled .failed).handle.isLoss_reason session.path
        (dataCode session.reply.count)
      rw [← told] at loss
      unfold filled
      rw [spent]
      exact .lost data diagnostic _ onData.cursor loss

theorem forEachChunk_draws {Gathered Cause : Type} (visitor : Visitor Gathered Cause)
    (gathered : Gathered) (session : Session) (host : Host) :
    session.Draws (session.forEachChunk visitor gathered host).value.1.failure?
      (session.forEachChunk visitor gathered host).session := by
  fun_induction forEachChunk visitor gathered session host with
  | case1 => exact .refl _ rfl
  | case2 _ session host _ read _ failed =>
      have draws := session.readChunk_draws host
      rw [failed] at draws
      exact draws
  | case3 _ session host _ read empty =>
      have draws := session.readChunk_draws host
      rw [empty] at draws
      exact draws
  | case4 _ session host _ read _ _ filled =>
      have draws := session.readChunk_draws host
      rw [filled] at draws
      exact draws
  | case5 _ session host _ read _ _ filled _ _ ih =>
      have draws := session.readChunk_draws host
      rw [filled] at draws
      exact draws.trans ih

theorem skipEntry_draws (session : Session) (host : Host) :
    session.Draws (thrown? (session.skipEntry host).value) (session.skipEntry host).session := by
  have skips := session.skipEntry_skips host
  generalize session.skipEntry host = outcome at *
  cases skips with
  | idle => exact .refl session rfl
  | failed => exact .refl session rfl
  | skipped => exact .served [] session.handle.skip.diagnostic session.buffer rfl
  | broken onMember _ told =>
      subst told
      exact .lost [] session.handle.skip.diagnostic session.buffer onMember
        (Handle.isLoss_reason ..)

/-- An operation that asks for no further member leaves the session where it is, unless the decoder
fails; and its answer is no member. -/
theorem perform_draws {operation : Operation} (host : Host) (stays : operation.Stays)
    (still : operation.moves = false) :
    (∃ after, (session.perform host operation).position = .inSession after ∧
      session.Draws (session.perform host operation).answer.archiveError? after) ∧
      (session.perform host operation).answer.member? = none := by
  have unchanged : session.Draws none session := .refl session rfl
  cases operation with
  | advance => cases still
  | read =>
      have draws := session.readChunk_draws host
      simp only [perform, stay]
      cases value : (session.readChunk host).value <;> rw [value] at draws <;>
        exact ⟨⟨_, rfl, draws⟩, rfl⟩
  | drain =>
      have draws := session.forEachChunk_draws collector [] host
      simp only [perform, stay, drain]
      cases ended : (session.forEachChunk collector [] host).value.1 with
      | complete => rw [ended] at draws; exact ⟨⟨_, rfl, draws⟩, rfl⟩
      | unreadable => rw [ended] at draws; exact ⟨⟨_, rfl, draws⟩, rfl⟩
      | stopped cause => cases cause
  | copy sink state =>
      have draws := session.forEachChunk_draws (copier sink.recording) (0, state, []) host
      simp only [perform, stay, copyTo]
      cases ended : (session.forEachChunk (copier sink.recording) (0, state, []) host).value.1 <;>
        rw [ended] at draws <;> exact ⟨⟨_, rfl, draws⟩, rfl⟩
  | skip =>
      have draws := session.skipEntry_draws host
      simp only [perform, stay]
      cases value : (session.skipEntry host).value <;> rw [value] at draws <;>
        exact ⟨⟨_, rfl, draws⟩, rfl⟩
  | close => cases stays
  | drop => cases stays
  | abandon => cases stays
  | _ => exact ⟨⟨session, rfl, unchanged⟩, rfl⟩

theorem perform_extends (session : Session) (host : Host) (operation : Operation) :
    host.Extends (session.perform host operation).host := by
  cases operation with
  | advance => exact session.advance_extends host
  | read => exact session.readChunk_extends host
  | drain => exact session.forEachChunk_extends ..
  | copy sink state => exact session.forEachChunk_extends ..
  | skip => exact session.skipEntry_extends host
  | close => exact session.close_extends host
  | drop => exact session.close_extends host
  | _ => exact .refl host

theorem advance_cursor (session : Session) (host : Host) :
    (session.advance host).session.cursor = match (session.advance host).value with
      | .ok (some _) => .onMember
      | .ok none => .exhausted
      | .error _ => .failed := by
  have advances := session.advance_advances host
  generalize session.advance host = outcome at *
  cases advances with
  | exhausted past => exact past
  | failed stopped => exact stopped
  | member => rfl
  | ended => rfl
  | broken => rfl

theorem advance_entriesSeen (session : Session) (host : Host) :
    (session.advance host).session.entriesSeen =
      session.entriesSeen + match (session.advance host).value with
        | .ok (some _) => 1
        | _ => 0 := by
  have advances := session.advance_advances host
  generalize session.advance host = outcome at *
  cases advances <;> rfl

theorem Going.advance_headers (going : session.Going) (host : Host) :
    (session.advance host).session.handle.headers = session.handle.headers.tail := by
  have next := session.handle.nextHeader_fields.2.2
  have advances := session.advance_advances host
  generalize session.advance host = outcome at *
  cases advances with
  | exhausted past => exact absurd past going.not_exhausted
  | failed stopped => exact absurd stopped going.not_failed
  | member => exact next
  | ended => exact next
  | broken => exact next

end Session

/-- What a session begins with: nothing but the next decoder, whatever the reader was used for. -/
theorem Reader.begins {reader : Reader} {session : Session} {before host : Host}
    (opened : reader.openSession before = (.opened session, host)) :
    ∃ script buffer, before.decoders.head? = some (some script) ∧
      session = ⟨reader.setup, buffer,
        (Handle.ofScript before.allocated script).answer script.openFile, none, .start, 0⟩ := by
  have released : (reader.releaseStale before).1 = reader.setup ∧
      (reader.releaseStale before).2.2.decoders = before.decoders ∧
      (reader.releaseStale before).2.2.allocated = before.allocated := by
    cases reader <;> exact ⟨rfl, rfl, rfl⟩
  obtain ⟨setup, decoders, allocated⟩ := released
  have acquires := acquire_acquires (reader.releaseStale before).1 (reader.releaseStale before).2.2
  unfold Reader.openSession at opened
  dsimp only at opened
  generalize acquire (reader.releaseStale before).1 (reader.releaseStale before).2.2 = outcome at *
  cases acquires with
  | obstructed => cases opened
  | unavailable => cases opened
  | refused => cases opened
  | @ready script later _ next =>
      cases opened
      refine ⟨script, (reader.releaseStale before).2.1, ?_, ?_⟩
      · rw [← decoders, next, List.head?_cons]
      · rw [setup, allocated]

end ArchiveTraversal
