import ArchiveTraversal.Session

/-!
Walking through the data of the current member. A walk hands one chunk after another to a visitor
until there is no more data, a read fails, or someone wants it to stop. It ends because each chunk
uses up some of what the decoder has left of the member.
-/

namespace ArchiveTraversal

namespace Session

theorem readChunk_weight (session : Session) (host : Host) {byte : UInt8} {more : Bytes}
    (read : (session.readChunk host).value = .ok (byte :: more)) :
    (session.readChunk host).session.handle.weight < session.handle.weight := by
  unfold readChunk at read ⊢
  split at read
  · simp at read
  · simp at read
  · simp at read
  · split at read
    · simp at read
    · rename_i selected notDirectory
      have filled : (session.handle.readData session.setup.options.chunkSize).1.count ≠ 0 := by
        intro none
        simp [none] at read
      have less := session.handle.readData_weight _ filled
      simp only [notDirectory, Bool.false_eq_true, ↓reduceIte]
      split <;> exact less

theorem readChunk_headers (session : Session) (host : Host) :
    (session.readChunk host).session.handle.headers = session.handle.headers := by
  have kept := session.handle.readData_headers session.setup.options.chunkSize
  unfold readChunk
  split
  · rfl
  · rfl
  · rfl
  · split
    · rfl
    · dsimp only
      split <;> exact kept

end Session

inductive Walk (Cause : Type) where
  | complete
  | unreadable (error : ArchiveError)
  | stopped (cause : Cause)
  deriving DecidableEq, Repr

/-- A visitor of chunks. It may halt the walk before a read, and it may refuse a chunk; what it
has gathered is kept in either case. -/
structure Visitor (Gathered Cause : Type) where
  halt : Host → Option Cause
  visit : Gathered → Bytes → Gathered × Option Cause

namespace Session

/-- The visitor is asked to halt before every read, the first one included. -/
def forEachChunk {Gathered Cause : Type} (visitor : Visitor Gathered Cause) (gathered : Gathered)
    (session : Session) (host : Host) : Outcome (Walk Cause × Gathered) :=
  match visitor.halt host with
  | some cause => ⟨(.stopped cause, gathered), session, host⟩
  | none =>
      let read := session.readChunk host
      match _taken : read.value with
      | .error error => ⟨(.unreadable error, gathered), read.session, read.host⟩
      | .ok [] => ⟨(.complete, gathered), read.session, read.host⟩
      | .ok (byte :: more) =>
          match visitor.visit gathered (byte :: more) with
          | (gathered, some cause) => ⟨(.stopped cause, gathered), read.session, read.host⟩
          | (gathered, none) => forEachChunk visitor gathered read.session read.host
termination_by session.handle.weight
decreasing_by exact readChunk_weight session host _taken

theorem forEachChunk_headers {Gathered Cause : Type} (visitor : Visitor Gathered Cause)
    (gathered : Gathered) (session : Session) (host : Host) :
    (session.forEachChunk visitor gathered host).session.handle.headers =
      session.handle.headers := by
  fun_induction forEachChunk visitor gathered session host with
  | case1 => rfl
  | case2 => exact readChunk_headers ..
  | case3 => exact readChunk_headers ..
  | case4 => exact readChunk_headers ..
  | case5 _ _ _ _ _ _ _ _ _ _ ih => exact ih.trans (readChunk_headers ..)

def collector : Visitor (List Bytes) Empty where
  halt _ := none
  visit chunks chunk := (chunk :: chunks, none)

def drain (session : Session) (host : Host) : Outcome (List Bytes × Option ArchiveError) :=
  let walked := session.forEachChunk collector [] host
  let failure := match walked.value.1 with
    | .complete => none
    | .unreadable error => some error
    | .stopped cause => nomatch cause
  ⟨(walked.value.2.reverse, failure), walked.session, walked.host⟩

end Session

end ArchiveTraversal
