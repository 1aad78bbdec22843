import ArchiveTraversal.Proofs.Decoder.Answers

/-!
How a session takes what its decoder answers. A request for a header gives a member, the end or a
failure, a request for data gives bytes or a failure, and one to skip data goes well or fails: which
of these is for the return code to say, by one rule for each. A failure is told in the decoder's
words about that very call, whatever it has said before.
-/

namespace ArchiveTraversal

open Decoder

namespace Decoder

/-- What there is to be said of a call that failed. The decoder's own text comes first, even if it
is empty, then what the system says of its error number; the bare code is the last resort. -/
inductive Diagnostic.Says (diagnostic : Diagnostic) (code : Int) : String → Prop
  | own {text : Bytes} (stated : diagnostic.text = some text) :
      Says diagnostic code (Text.Utf8.decodeLossy text)
  | system (silent : diagnostic.text = none) (numbered : diagnostic.number ≠ 0) :
      Says diagnostic code (SystemError.describe diagnostic.number ++
        " (os error " ++ toString diagnostic.number ++ ")")
  | bare (silent : diagnostic.text = none) (unnumbered : diagnostic.number = 0) :
      Says diagnostic code ("Decoder returned status " ++ toString code)

theorem Diagnostic.says_reason (diagnostic : Diagnostic) (code : Int) :
    diagnostic.Says code (diagnostic.reason code).text := by
  unfold reason
  split
  · rename_i text stated
    exact .own stated
  · rename_i silent
    split
    · rename_i unnumbered
      exact .bare silent unnumbered
    · rename_i numbered
      exact .system silent numbered

/-- What the decoder has ready for the next request for a header; after the last one, the end. -/
def Handle.upcoming (handle : Handle) : HeaderItem :=
  handle.headers.head?.getD { reply := { code := 1 } }

/-- Only a raw answer reports a count below zero, and what the decoder says then comes with it. -/
theorem Handle.readData_negative {handle : Handle} {capacity : Nat}
    (negative : (handle.readData capacity).1.count < 0) :
    ∃ item rest bytes, handle.data = item :: rest ∧
      item.serving = .raw (handle.readData capacity).1.count bytes ∧
      (handle.readData capacity).2.diagnostic = item.diagnostic := by
  have serves := handle.readData_serves capacity
  generalize handle.readData capacity = read at *
  cases serves with
  | nothing => cases negative
  | raw left serving => exact ⟨_, _, _, left, serving, rfl⟩
  | whole => exact absurd negative (Int.not_lt.mpr (Int.natCast_nonneg _))
  | part => exact absurd negative (Int.not_lt.mpr (Int.natCast_nonneg _))

theorem Handle.skipData_answer (handle : Handle) (reply : Reply) :
    (handle.answer reply).skipData = handle.skipData := rfl

end Decoder

/-- The error is one of reading an archive, and gives what the decoder said of the call that
failed. -/
def ArchiveError.Conveys (error : ArchiveError) (path : Path) (stage : ReadStage)
    (diagnostic : Diagnostic) (code : Int) : Prop :=
  ∃ reason, error = .reading path stage reason ∧ diagnostic.Says code reason.text

namespace Session

variable {session : Session}

theorem conveys_readError (session : Session) (stage : ReadStage) (diagnostic : Diagnostic)
    (code : Int) :
    (session.readError stage (diagnostic.reason code)).Conveys session.path stage diagnostic code :=
  ⟨diagnostic.reason code, rfl, diagnostic.says_reason code⟩

theorem Going.advance_response (going : session.Going) (host : Host) :
    (session.advance host).value =
      let response := session.handle.upcoming
      if response.reply.code = 1 then .ok none
      else match response.header with
        | some header =>
            if response.reply.code = 0 then .ok (some header)
            else .error (session.readError .header
              (response.reply.diagnostic.reason response.reply.code))
        | none => .error (session.readError .header
            (response.reply.diagnostic.reason response.reply.code)) := by
  rw [going.advance_value]
  unfold upcoming Handle.upcoming
  cases session.handle.headers <;> rfl

/-- A member takes a header as well as a code of zero, and the end takes the code only. -/
theorem Going.advance_decided (going : session.Going) (host : Host) :
    let moved := (session.advance host).value
    let response := session.handle.upcoming
    (∀ header, moved = .ok (some header) ↔
      response.reply.code = 0 ∧ response.header = some header) ∧
    (moved = .ok none ↔ response.reply.code = 1) ∧
    ((∃ error, moved = .error error) ↔
      response.reply.code ≠ 1 ∧ (response.reply.code = 0 → response.header = none)) ∧
    ∀ error, moved = .error error →
      error.Conveys session.path .header response.reply.diagnostic response.reply.code := by
  intro moved response
  have conveyed := session.conveys_readError .header response.reply.diagnostic response.reply.code
  have answered : moved = _ := going.advance_response host
  by_cases ended : response.reply.code = 1
  · simp [answered, response, ended]
  · cases given : response.header with
    | none => simp_all [response]
    | some header =>
        by_cases fine : response.reply.code = 0
        · simp_all [response]
        · simp_all [response]

/-- What is read is the front of the buffer, which the decoder has filled so far and no further than
the buffer goes. -/
theorem OnData.readChunk_decided (onData : session.OnData) (host : Host) :
    let read := session.readChunk host
    let count := session.reply.count
    let length := min count.toNat session.setup.options.chunkSize
    ((∃ error, read.value = .error error) ↔ count < 0) ∧
    (0 ≤ count → read.value = .ok (read.session.buffer.take length) ∧
      read.session.buffer.take length = session.reply.filled ∧
      length ≤ read.session.buffer.length) ∧
    (session.buffer.length ≤ session.setup.options.chunkSize →
      read.session.buffer.length ≤ session.setup.options.chunkSize) ∧
    ∀ error, read.value = .error error → ∃ item rest bytes,
      session.handle.data = item :: rest ∧ item.serving = .raw count bytes ∧
      error.Conveys session.path .data item.diagnostic
        (if count < -2147483648 then -30 else count) := by
  intro read count length
  have whole : session.reply.filled.length = length :=
    session.handle.length_readData session.setup.options.chunkSize
  have buffer : read.session.buffer =
      session.reply.filled ++ session.buffer.drop session.reply.filled.length := by
    simp only [read, onData.readChunk_eq]
    split <;> rfl
  have front : read.session.buffer.take length = session.reply.filled := by
    rw [buffer, ← whole, List.take_left]
  have answered : read.value = if count < 0 then
      .error (session.readError .data ((session.filled .failed).handle.reason (dataCode count)))
      else .ok session.reply.filled := by
    simp only [read, onData.readChunk_eq]
    split <;> rfl
  -- The count alone decides whether the read fails, so all four parts are read off the equation.
  refine ⟨?_, ?_, ?_, ?_⟩
  · rw [answered]
    split
    · rename_i negative
      exact ⟨fun _ => negative, fun _ => ⟨_, rfl⟩⟩
    · rename_i enough
      exact ⟨fun ⟨_, failed⟩ => (by cases failed), fun negative => absurd negative enough⟩
  · intro enough
    refine ⟨?_, front, ?_⟩
    · rw [answered, if_neg (Int.not_lt.mpr enough), front]
    · rw [buffer, List.length_append, whole]
      exact Nat.le_add_right ..
  · intro within
    have most : length ≤ session.setup.options.chunkSize := Nat.min_le_right ..
    rw [buffer, List.length_append, List.length_drop, whole]
    omega
  · intro error failed
    rw [answered] at failed
    split at failed
    · rename_i negative
      cases failed
      obtain ⟨item, rest, bytes, left, raw, said⟩ := Handle.readData_negative negative
      refine ⟨item, rest, bytes, left, raw, ?_⟩
      rw [← said]
      exact session.conveys_readError .data (session.filled .failed).handle.diagnostic
        (dataCode count)
    · cases failed

theorem skipEntry_decided (onMember : session.cursor = .onMember) (host : Host) :
    ((session.skipEntry host).value = .ok () ↔ session.handle.skip.code = 0) ∧
    ∀ error, (session.skipEntry host).value = .error error →
      error.Conveys session.path .data session.handle.skip.diagnostic session.handle.skip.code := by
  have skips := session.skipEntry_skips host
  generalize session.skipEntry host = outcome at *
  cases skips with
  | idle off => simp [onMember] at off
  | failed stopped => cases onMember.symm.trans stopped
  | skipped _ code => exact ⟨⟨fun _ => code, fun _ => rfl⟩, fun _ failed => by cases failed⟩
  | broken _ code told =>
      refine ⟨⟨fun fine => (by cases fine), fun fine => absurd fine code⟩, ?_⟩
      rintro _ ⟨⟩
      rw [told]
      exact session.conveys_readError .data session.handle.skip.diagnostic session.handle.skip.code

/-- The session as it would be if the decoder had last answered something else. -/
def hearing (session : Session) (earlier : Reply) : Session :=
  { session with handle := session.handle.answer earlier }

theorem hearing_irrelevant (session : Session) (host : Host) (earlier : Reply) :
    ((session.hearing earlier).advance host).value = (session.advance host).value ∧
    ((session.hearing earlier).readChunk host).value = (session.readChunk host).value ∧
    ((session.hearing earlier).skipEntry host).value = (session.skipEntry host).value := by
  refine ⟨?_, ?_, ?_⟩
  · unfold advance
    simp only [hearing, Handle.nextHeader_answer]
    cases session.cursor <;> rfl
  · unfold readChunk
    simp only [hearing, Handle.readData_answer]
    cases session.cursor with
    | onMember =>
        dsimp only
        split
        · rfl
        · split <;> rfl
    | _ => rfl
  · unfold skipEntry
    simp only [hearing, Handle.skipData_answer]
    cases session.cursor with
    | onMember =>
        by_cases fine : Status.ofCode session.handle.skipData.1 = .ok
        · simp only [fine, ↓reduceIte]
        · simp only [fine, ↓reduceIte]
          rfl
    | _ => rfl

end Session

/-- A session that can go on gives the member just for a code of zero that comes with a header, the
end just for a code of one, and otherwise fails to read a header. On a member with data, a read
fails just for a count below zero, and gives otherwise so many bytes from the front of the buffer,
but no more than the buffer holds. Skipping goes well just for a code of zero. Every failure is
told in the decoder's words about the call that failed, with its code if there are none, which for
a count out of range is that of a fatal error; and never in words about an earlier call. -/
theorem responses_decide (session : Session) (host : Host) :
    (session.Going →
      let moved := (session.advance host).value
      let response := session.handle.upcoming
      (∀ header, moved = .ok (some header) ↔
        response.reply.code = 0 ∧ response.header = some header) ∧
      (moved = .ok none ↔ response.reply.code = 1) ∧
      ((∃ error, moved = .error error) ↔
        response.reply.code ≠ 1 ∧ (response.reply.code = 0 → response.header = none)) ∧
      ∀ error, moved = .error error →
        error.Conveys session.path .header response.reply.diagnostic response.reply.code) ∧
    (session.OnData →
      let read := session.readChunk host
      let count := session.reply.count
      let length := min count.toNat session.setup.options.chunkSize
      ((∃ error, read.value = .error error) ↔ count < 0) ∧
      (0 ≤ count → read.value = .ok (read.session.buffer.take length) ∧
        read.session.buffer.take length = session.reply.filled ∧
        length ≤ read.session.buffer.length) ∧
      (session.buffer.length ≤ session.setup.options.chunkSize →
        read.session.buffer.length ≤ session.setup.options.chunkSize) ∧
      ∀ error, read.value = .error error → ∃ item rest bytes,
        session.handle.data = item :: rest ∧ item.serving = .raw count bytes ∧
        error.Conveys session.path .data item.diagnostic
          (if count < -2147483648 then -30 else count)) ∧
    (session.cursor = .onMember →
      ((session.skipEntry host).value = .ok () ↔ session.handle.skip.code = 0) ∧
      ∀ error, (session.skipEntry host).value = .error error →
        error.Conveys session.path .data session.handle.skip.diagnostic
          session.handle.skip.code) ∧
    ∀ earlier : Reply,
      ((session.hearing earlier).advance host).value = (session.advance host).value ∧
      ((session.hearing earlier).readChunk host).value = (session.readChunk host).value ∧
      ((session.hearing earlier).skipEntry host).value = (session.skipEntry host).value :=
  ⟨fun going => going.advance_decided host, fun onData => onData.readChunk_decided host,
    fun onMember => Session.skipEntry_decided onMember host, session.hearing_irrelevant host⟩

/-- A request for a header, a read and a skip all fail: the first with an empty text of the
decoder's own, the second with a count that is out of range, and the third with an error number. What
the decoder said before is not heard again. -/
theorem failures_in_own_words :
    let path : Path := [0x78]
    let item : HeaderItem := { reply := { code := -20, diagnostic := ⟨some [], 5⟩ } }
    let handle : Handle :=
      { Handle.ofScript 0 { headers := [item] } with
        data := [{ serving := .raw (-2147483649) [] }]
        skip := { code := 1, diagnostic := ⟨none, 5⟩ }
        diagnostic := ⟨some [0x61], 0⟩ }
    let header : Header := ⟨some [0x61], none, 3, true, 0o100644⟩
    let session : Session :=
      { setup := ⟨path, {}⟩, buffer := [], handle := handle, current := some ⟨0, header⟩,
        cursor := .onMember }
    (∃ reason, (session.advance {}).value = .error (.reading path .header reason) ∧
      reason.text = "") ∧
    (∃ reason, (session.readChunk {}).value = .error (.reading path .data reason) ∧
      reason.text = "Decoder returned status -30") ∧
    ∃ reason, (session.skipEntry {}).value = .error (.reading path .data reason) ∧
      reason.text = "Input/output error (os error 5)" := by
  intro path item handle header session
  have onData : session.OnData := ⟨rfl, by decide⟩
  obtain ⟨advance, read, skip, -⟩ := responses_decide session {}
  refine ⟨?_, ?_, ?_⟩
  · obtain ⟨-, -, broken, conveyed⟩ := advance (.inr rfl)
    obtain ⟨_, failed⟩ := broken.mpr (by decide)
    obtain ⟨reason, rfl, told⟩ := conveyed _ failed
    refine ⟨reason, failed, ?_⟩
    generalize reason.text = text at told
    cases told with
    | own stated =>
        cases stated
        rfl
    | system silent => cases silent
    | bare silent => cases silent
  · obtain ⟨broken, -, -, conveyed⟩ := read onData
    obtain ⟨_, failed⟩ := broken.mpr (by decide)
    obtain ⟨_, _, _, ⟨⟩, -, reason, rfl, told⟩ := conveyed _ failed
    refine ⟨reason, failed, ?_⟩
    generalize reason.text = text at told
    cases told with
    | own stated => cases stated
    | system _ numbered => exact absurd rfl numbered
    | bare => rfl
  · obtain ⟨fine, conveyed⟩ := skip rfl
    cases skipped : (session.skipEntry {}).value with
    | ok => exact absurd (fine.mp skipped) (by decide)
    | error =>
        obtain ⟨reason, rfl, told⟩ := conveyed _ skipped
        refine ⟨reason, rfl, ?_⟩
        generalize reason.text = text at told
        cases told with
        | own stated => cases stated
        | system => rfl
        | bare _ unnumbered => cases unnumbered

end ArchiveTraversal
