import ArchiveTraversal.Proofs.Decoder.Answers
import ArchiveTraversal.Proofs.Decoder.Yield

/-!
How often a decoder is asked for the data of a member. A walk that is not stopped asks once for
each chunk, and once more to find that there is no more to be had; and there are no more chunks than
there are bytes and pieces of data. So what a member holds bounds what any walk through it asks
for.
-/

namespace ArchiveTraversal

open Decoder

namespace Decoder

def DataItem.bytes (item : DataItem) : Bytes :=
  match item.serving with
  | .raw _ bytes => bytes
  | .content bytes => bytes

def dataSize (data : List DataItem) : Nat := (data.map fun item => item.bytes.length).sum

theorem dataWeight_le (data : List DataItem) : dataWeight data ≤ dataSize data + data.length := by
  induction data with
  | nil => exact Nat.le_refl 0
  | cons item rest ih =>
      have one : item.weight ≤ item.bytes.length + 1 := by
        unfold DataItem.weight DataItem.bytes
        cases item.serving <;> simp
      have size : dataSize (item :: rest) = item.bytes.length + dataSize rest := rfl
      simp only [dataWeight, size, List.length_cons]
      omega

end Decoder

namespace Session

def readsLeft (session : Session) : Nat :=
  if session.cursor = .onMember ∧ session.current.any (·.header.isDirectory) = false then
    (chunks session.setup.options.chunkSize session.handle.data).length + 1
  else 0

variable {session : Session}

theorem OnData.readsLeft_eq (onData : session.OnData) : session.readsLeft =
    (chunks session.setup.options.chunkSize session.handle.data).length + 1 :=
  if_pos ⟨onData.cursor, onData.regular⟩

theorem readsLeft_of_dry (off : ¬ session.OnData) : session.readsLeft = 0 :=
  if_neg fun ⟨cursor, regular⟩ => off ⟨cursor, regular⟩

theorem onData_of_filled {host : Host} {byte : UInt8} {more : Bytes}
    (filled : (session.readChunk host).value = .ok (byte :: more)) : session.OnData := by
  by_contra off
  rw [readChunk_dry off] at filled
  unfold dry at filled
  split at filled <;> cases filled

theorem readsLeft_of_filled {host : Host} {byte : UInt8} {more : Bytes}
    (positive : 0 < session.setup.options.chunkSize)
    (filled : (session.readChunk host).value = .ok (byte :: more)) :
    session.readsLeft = (session.readChunk host).session.readsLeft + 1 := by
  have onData := onData_of_filled filled
  obtain ⟨_, _, handle, setup, stays⟩ := onData.readChunk_ok filled
  rw [onData.readsLeft_eq, stays.readsLeft_eq, setup, handle,
    Handle.chunks_of_filled positive (onData.readChunk_filled filled), List.length_cons]

theorem readsLeft_of_unfilled {host : Host} (positive : 0 < session.setup.options.chunkSize)
    (unfilled : ∀ byte more, (session.readChunk host).value ≠ .ok (byte :: more)) :
    session.readsLeft ≤ 1 := by
  by_cases onData : session.OnData
  · have most : session.reply.count ≤ 0 := by
      cases value : (session.readChunk host).value with
      | error error => exact Int.le_of_lt (onData.readChunk_error value)
      | ok bytes =>
          cases bytes with
          | nil => exact onData.readChunk_empty positive value
          | cons byte more => exact absurd value (unfilled byte more)
    rw [onData.readsLeft_eq, Handle.chunks_of_empty positive most]
    exact Nat.le_refl 1
  · rw [readsLeft_of_dry onData]
    exact Nat.zero_le 1

theorem readChunk_calls (session : Session) (host : Host) :
    host.Makes session.handle.number (List.replicate (min session.readsLeft 1)
      (.readData session.setup.options.chunkSize)) (session.readChunk host).host := by
  by_cases onData : session.OnData
  · have one : min session.readsLeft 1 = 1 := by
      rw [onData.readsLeft_eq]
      omega
    rw [one, onData.readChunk_eq]
    split <;> exact session.calls_fetched host _
  · rw [readsLeft_of_dry onData, readChunk_dry onData]
    exact .of_calls _ rfl

section

variable {Gathered Cause : Type} (visitor : Visitor Gathered Cause)

/-- What a walk asks for: nothing but data, and that at most once for each byte and each piece of
it, and once more; and if the walk is not stopped, once for each chunk, and once more. -/
structure Asks (session : Session) (host : Host) (stopped : Prop) (after : Host) (count : Nat) :
    Prop where
  made : host.Makes session.handle.number
    (List.replicate count (.readData session.setup.options.chunkSize)) after
  most : count ≤ session.handle.weight + 1
  nowhere : ¬ session.OnData → count = 0
  exactly : 0 < session.setup.options.chunkSize → ¬ stopped → count = session.readsLeft

theorem readChunk_once (session : Session) (host : Host) {stopped : Prop}
    (last : 0 < session.setup.options.chunkSize → ¬ stopped → session.readsLeft ≤ 1) :
    session.Asks host stopped (session.readChunk host).host (min session.readsLeft 1) := by
  refine ⟨session.readChunk_calls host, ?_, fun off => ?_, fun positive goes => ?_⟩
  · omega
  · rw [readsLeft_of_dry off]
    rfl
  · exact Nat.min_eq_left (last positive goes)

theorem forEachChunk_calls (gathered : Gathered) (session : Session) (host : Host) :
    ∃ count, session.Asks host
      (∃ cause, (session.forEachChunk visitor gathered host).value.1 = .stopped cause)
      (session.forEachChunk visitor gathered host).host count := by
  fun_induction forEachChunk visitor gathered session host with
  | case1 =>
      exact ⟨0, .of_calls _ rfl, Nat.zero_le _, fun _ => rfl, fun _ goes => absurd ⟨_, rfl⟩ goes⟩
  | case2 _ session host _ read _ failed =>
      exact ⟨_, session.readChunk_once host fun positive _ =>
        readsLeft_of_unfilled positive fun _ _ filled => by cases failed.symm.trans filled⟩
  | case3 _ session host _ read empty =>
      exact ⟨_, session.readChunk_once host fun positive _ =>
        readsLeft_of_unfilled positive fun _ _ filled => by cases empty.symm.trans filled⟩
  | case4 _ session host =>
      exact ⟨_, session.readChunk_once host fun _ goes => absurd ⟨_, rfl⟩ goes⟩
  | case5 _ session host _ read _ _ filled _ _ ih =>
      have onData := onData_of_filled filled
      have less := session.readChunk_weight host filled
      have setup := session.readChunk_setup host
      have number := session.readChunk_number host
      have first := session.readChunk_calls host
      obtain ⟨count, further, most, _, exactly⟩ := ih
      rw [onData.readsLeft_eq, Nat.min_eq_right (Nat.le_add_left ..)] at first
      rw [setup, number] at further
      rw [setup] at exactly
      refine ⟨count + 1, ?_, ?_, fun off => absurd onData off, fun positive goes => ?_⟩
      · rw [Nat.add_comm, List.replicate_add]
        exact first.trans further
      · exact Nat.succ_le_succ (Nat.le_trans most less)
      · rw [readsLeft_of_filled positive filled, exactly positive goes]

end

end Session

end ArchiveTraversal
