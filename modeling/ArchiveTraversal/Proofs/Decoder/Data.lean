import ArchiveTraversal.Proofs.Reader
import ArchiveTraversal.Proofs.Session

/-!
The data of a member as a whole. What a decoder serves until it has nothing more to give depends
on its script and the capacity only, and a walk that reaches the end of the data has seen all of
it, chunk by chunk.
-/

namespace ArchiveTraversal

namespace Decoder

def pieces (size : Nat) (bytes : Bytes) : List Bytes :=
  if size = 0 ∨ bytes = [] then []
  else bytes.take size :: pieces size (bytes.drop size)
termination_by bytes.length
decreasing_by
  have some := List.length_pos_iff.mpr (fun empty => ‹¬ (size = 0 ∨ bytes = [])› (.inr empty))
  simp only [List.length_drop]
  omega

theorem pieces_cons {size : Nat} {bytes : Bytes} (positive : 0 < size) (some : bytes ≠ []) :
    pieces size bytes = bytes.take size :: pieces size (bytes.drop size) := by
  rw [pieces, if_neg]
  rintro (zero | none)
  · omega
  · exact some none

/-- What reads give before the first one that gives nothing. -/
def chunks (capacity : Nat) : List DataItem → List Bytes
  | [] => []
  | item :: rest =>
      match item.serving with
      | .raw count bytes =>
          if count ≤ 0 then [] else Handle.fit bytes (min count.toNat capacity) :: chunks capacity rest
      | .content bytes =>
          if bytes = [] then [] else pieces capacity bytes ++ chunks capacity rest

def served (capacity : Nat) : List DataItem → Bytes
  | [] => []
  | item :: rest =>
      match item.serving with
      | .raw count bytes =>
          if count ≤ 0 then [] else Handle.fit bytes (min count.toNat capacity) ++ served capacity rest
      | .content bytes => if bytes = [] then [] else bytes ++ served capacity rest

theorem flatten_pieces {size : Nat} (positive : 0 < size) (bytes : Bytes) :
    (pieces size bytes).flatten = bytes := by
  fun_induction pieces size bytes with
  | case1 bytes none =>
      rcases none with zero | empty
      · omega
      · simp [empty]
  | case2 bytes some ih => rw [List.flatten_cons, ih, List.take_append_drop]

theorem flatten_chunks {capacity : Nat} (positive : 0 < capacity) (data : List DataItem) :
    (chunks capacity data).flatten = served capacity data := by
  induction data with
  | nil => rfl
  | cons item rest ih =>
      cases serving : item.serving with
      | raw count bytes =>
          simp only [chunks, served, serving]
          split
          · rfl
          · rw [List.flatten_cons, ih]
      | content bytes =>
          simp only [chunks, served, serving]
          split
          · rfl
          · rw [List.flatten_append, flatten_pieces positive, ih]

namespace Handle

variable {handle : Handle} {capacity : Nat}

/-- What a read comes to, by what is next in the data. Content is served whole if there is room for
it, and in part if there is not. -/
inductive Serves (handle : Handle) (capacity : Nat) : DataReply × Handle → Prop
  | nothing (left : handle.data = []) :
      Serves handle capacity (⟨0, [], false⟩, { handle with diagnostic := {} })
  | raw {item : DataItem} {rest : List DataItem} {count : Int} {bytes : Bytes}
      (left : handle.data = item :: rest) (serving : item.serving = .raw count bytes) :
      Serves handle capacity (⟨count, fit bytes (min count.toNat capacity), item.cancels⟩,
        { handle with data := rest, diagnostic := item.diagnostic })
  | whole {item : DataItem} {rest : List DataItem} {bytes : Bytes}
      (left : handle.data = item :: rest) (serving : item.serving = .content bytes)
      (short : bytes.length ≤ capacity) :
      Serves handle capacity (⟨bytes.length, bytes, item.cancels⟩,
        { handle with data := rest, diagnostic := item.diagnostic })
  | part {item : DataItem} {rest : List DataItem} {bytes : Bytes}
      (left : handle.data = item :: rest) (serving : item.serving = .content bytes)
      (long : capacity < bytes.length) :
      Serves handle capacity (⟨capacity, bytes.take capacity, false⟩,
        { handle with
          data := { item with serving := .content (bytes.drop capacity) } :: rest
          diagnostic := {} })

theorem readData_serves (handle : Handle) (capacity : Nat) :
    handle.Serves capacity (handle.readData capacity) := by
  unfold readData
  split
  · rename_i left
    exact .nothing left
  · rename_i item rest left
    split
    · rename_i serving
      exact .raw left serving
    · rename_i bytes serving
      dsimp only
      split
      · rename_i short
        rw [List.drop_eq_nil_iff] at short
        rw [List.take_of_length_le short]
        exact .whole left serving short
      · rename_i remaining
        have long : capacity < bytes.length := by
          apply Nat.lt_of_not_le
          intro short
          rw [List.drop_eq_nil_of_le short] at remaining
          cases remaining
        rw [← remaining, List.length_take, Nat.min_eq_left (Nat.le_of_lt long)]
        exact .part left serving long

theorem chunks_of_empty (positive : 0 < capacity)
    (empty : (handle.readData capacity).1.count ≤ 0) : chunks capacity handle.data = [] := by
  have serves := handle.readData_serves capacity
  generalize handle.readData capacity = read at *
  cases serves with
  | nothing left => rw [left, chunks]
  | raw left serving =>
      rw [left]
      simp only [chunks, serving]
      exact if_pos empty
  | @whole _ _ bytes left serving =>
      have none : bytes = [] := List.length_eq_zero_iff.mp (by dsimp only at empty; omega)
      rw [left]
      simp [chunks, serving, none]
  | part => dsimp only at empty; omega

theorem chunks_of_filled (positive : 0 < capacity)
    (filled : 0 < (handle.readData capacity).1.count) :
    chunks capacity handle.data =
      (handle.readData capacity).1.filled :: chunks capacity (handle.readData capacity).2.data := by
  have serves := handle.readData_serves capacity
  generalize handle.readData capacity = read at *
  cases serves with
  | nothing => cases filled
  | raw left serving =>
      rw [left]
      simp only [chunks, serving]
      exact if_neg (Int.not_le.mpr filled)
  | whole left serving short =>
      have some := List.ne_nil_of_length_pos (Int.ofNat_lt.mp filled)
      rw [left]
      simp only [chunks, serving, some, ↓reduceIte, pieces_cons positive some,
        List.take_of_length_le short, List.drop_eq_nil_of_le short]
      rw [pieces]
      simp
  | part left serving long =>
      have some := List.ne_nil_of_length_pos (Nat.zero_lt_of_lt long)
      have more := List.ne_nil_of_length_pos (List.length_drop ▸ Nat.sub_pos_of_lt long)
      rw [left]
      simp only [chunks, serving, some, more, ↓reduceIte, pieces_cons positive some,
        List.cons_append]

end Handle

end Decoder

namespace Session

theorem OnData.readChunk_ok {session : Session} {host : Host} {chunk : Bytes}
    (onData : session.OnData) (read : (session.readChunk host).value = .ok chunk) :
    0 ≤ (session.handle.readData session.setup.options.chunkSize).1.count ∧
      chunk = (session.handle.readData session.setup.options.chunkSize).1.filled ∧
      (session.readChunk host).session.handle =
        (session.handle.readData session.setup.options.chunkSize).2 ∧
      (session.readChunk host).session.setup = session.setup ∧
      (session.readChunk host).session.OnData := by
  have reads := session.readChunk_reads host
  generalize session.readChunk host = outcome at *
  cases reads with
  | start => cases read
  | exhausted past => cases onData.cursor.symm.trans past
  | failed => cases read
  | directory _ is => cases onData.regular.symm.trans is
  | chunk _ enough =>
      cases read
      exact ⟨enough, rfl, rfl, rfl, ⟨onData.cursor, onData.regular⟩⟩
  | broken => cases read

theorem OnData.readChunk_error {session : Session} {host : Host} {error : ArchiveError}
    (onData : session.OnData) (read : (session.readChunk host).value = .error error) :
    (session.handle.readData session.setup.options.chunkSize).1.count < 0 := by
  have reads := session.readChunk_reads host
  generalize session.readChunk host = outcome at *
  cases reads with
  | start fresh => cases onData.cursor.symm.trans fresh
  | exhausted => cases read
  | failed stopped => cases onData.cursor.symm.trans stopped
  | directory => cases read
  | chunk => cases read
  | broken _ negative => exact negative

theorem OnData.readChunk_empty {session : Session} {host : Host} (onData : session.OnData)
    (positive : 0 < session.setup.options.chunkSize)
    (read : (session.readChunk host).value = .ok []) :
    (session.handle.readData session.setup.options.chunkSize).1.count ≤ 0 := by
  obtain ⟨_, filled, _⟩ := onData.readChunk_ok read
  have length := session.handle.length_readData session.setup.options.chunkSize
  rw [← filled, List.length_nil] at length
  omega

theorem OnData.readChunk_filled {session : Session} {host : Host} {byte : UInt8} {more : Bytes}
    (onData : session.OnData) (read : (session.readChunk host).value = .ok (byte :: more)) :
    0 < (session.handle.readData session.setup.options.chunkSize).1.count := by
  obtain ⟨_, filled, _⟩ := onData.readChunk_ok read
  have length := session.handle.length_readData session.setup.options.chunkSize
  rw [← filled, List.length_cons] at length
  omega

end Session

section

variable {Gathered Cause : Type} (visitor : Visitor Gathered Cause)

inductive Visitor.Takes : Gathered → List Bytes → Gathered → Prop
  | nil (gathered : Gathered) : Takes gathered [] gathered
  | cons {gathered next last : Gathered} {chunk : Bytes} {rest : List Bytes}
      (accepted : visitor.visit gathered chunk = (next, none)) (taken : Takes next rest last) :
      Takes gathered (chunk :: rest) last

inductive Visitor.Walked (gathered : Gathered) (all : List Bytes) : Walk Cause × Gathered → Prop
  | complete {last : Gathered} (taken : visitor.Takes gathered all last) :
      Walked gathered all (.complete, last)
  | unreadable {last : Gathered} (error : ArchiveError) (taken : visitor.Takes gathered all last) :
      Walked gathered all (.unreadable error, last)
  | halted {last : Gathered} {seen rest : List Bytes} {host : Host} {cause : Cause}
      (split : all = seen ++ rest) (taken : visitor.Takes gathered seen last)
      (halts : visitor.halt host = some cause) : Walked gathered all (.stopped cause, last)
  | refused {between last : Gathered} {seen rest : List Bytes} {chunk : Bytes} {cause : Cause}
      (split : all = seen ++ chunk :: rest) (taken : visitor.Takes gathered seen between)
      (refuses : visitor.visit between chunk = (last, some cause)) :
      Walked gathered all (.stopped cause, last)

variable {visitor}

theorem Visitor.Walked.cons {gathered next : Gathered} {chunk : Bytes} {rest : List Bytes}
    {result : Walk Cause × Gathered} (accepted : visitor.visit gathered chunk = (next, none))
    (walked : visitor.Walked next rest result) : visitor.Walked gathered (chunk :: rest) result := by
  cases walked with
  | complete taken => exact .complete (.cons accepted taken)
  | unreadable error taken => exact .unreadable error (.cons accepted taken)
  | @halted _ seen _ _ _ split taken halts =>
      exact .halted (by rw [split, List.cons_append]) (.cons accepted taken) halts
  | @refused _ _ seen _ _ _ split taken refuses =>
      exact .refused (by rw [split, List.cons_append]) (.cons accepted taken) refuses

theorem Visitor.Walked.taken {gathered : Gathered} {all : List Bytes}
    {result : Walk Cause × Gathered} (walked : visitor.Walked gathered all result)
    (complete : result.1 = .complete) : visitor.Takes gathered all result.2 := by
  cases walked with
  | complete taken => exact taken
  | unreadable => cases complete
  | halted => cases complete
  | refused => cases complete

/-- A walk visits the chunks of the data that is left, in order. -/
theorem Session.forEachChunk_walked (visitor : Visitor Gathered Cause) (gathered : Gathered)
    {session : Session} (host : Host) (onData : session.OnData)
    (positive : 0 < session.setup.options.chunkSize) :
    visitor.Walked gathered
      (Decoder.chunks session.setup.options.chunkSize session.handle.data)
      (session.forEachChunk visitor gathered host).value := by
  -- A read that gives something takes just that off the data that is left.
  fun_induction Session.forEachChunk visitor gathered session host with
  | case1 gathered session host cause halts =>
      exact .halted rfl (.nil gathered) halts
  | case2 gathered session host _ read error failed =>
      have none := Decoder.Handle.chunks_of_empty positive
        (Int.le_of_lt (onData.readChunk_error failed))
      rw [none]
      exact .unreadable error (.nil gathered)
  | case3 gathered session host _ read empty =>
      have none := Decoder.Handle.chunks_of_empty positive (onData.readChunk_empty positive empty)
      rw [none]
      exact .complete (.nil gathered)
  | case4 gathered session host _ read byte more filled last cause refuses =>
      rw [Decoder.Handle.chunks_of_filled positive (onData.readChunk_filled filled),
        ← (onData.readChunk_ok filled).2.1]
      exact .refused rfl (.nil gathered) refuses
  | case5 gathered session host _ read byte more filled next accepted ih =>
      obtain ⟨_, chunk, handle, setup, stays⟩ := onData.readChunk_ok filled
      rw [Decoder.Handle.chunks_of_filled positive (onData.readChunk_filled filled), ← chunk]
      have rest := ih stays (by rw [setup]; exact positive)
      rw [setup, handle] at rest
      exact rest.cons accepted

end

namespace Session

theorem readChunk_setup (session : Session) (host : Host) :
    (session.readChunk host).session.setup = session.setup := by
  have reads := session.readChunk_reads host
  generalize session.readChunk host = outcome at *
  cases reads <;> rfl

theorem forEachChunk_setup {Gathered Cause : Type} (visitor : Visitor Gathered Cause)
    (gathered : Gathered) (session : Session) (host : Host) :
    (session.forEachChunk visitor gathered host).session.setup = session.setup := by
  fun_induction forEachChunk visitor gathered session host with
  | case1 => rfl
  | case2 => exact readChunk_setup ..
  | case3 => exact readChunk_setup ..
  | case4 => exact readChunk_setup ..
  | case5 _ _ _ _ _ _ _ _ _ _ ih => exact ih.trans (readChunk_setup ..)

theorem readChunk_fails {session : Session} {host : Host} {error : ArchiveError}
    (failed : (session.readChunk host).value = .error error) :
    ∃ reason, error = .reading session.setup.path .data reason := by
  have reads := session.readChunk_reads host
  generalize session.readChunk host = outcome at *
  cases reads <;> cases failed <;> exact ⟨_, rfl⟩

theorem forEachChunk_fails {Gathered Cause : Type} {visitor : Visitor Gathered Cause}
    {gathered : Gathered} {session : Session} {host : Host} {error : ArchiveError}
    (failed : (session.forEachChunk visitor gathered host).value.1 = .unreadable error) :
    ∃ reason, error = .reading session.setup.path .data reason := by
  fun_induction Session.forEachChunk visitor gathered session host with
  | case1 => cases failed
  | case2 _ _ _ _ _ _ unreadable =>
      cases failed
      exact readChunk_fails unreadable
  | case3 => cases failed
  | case4 => cases failed
  | case5 _ session host _ _ _ _ _ _ _ ih =>
      have reading := ih failed
      rw [session.readChunk_setup host] at reading
      exact reading

theorem OnData.forEachChunk {Gathered Cause : Type} (visitor : Visitor Gathered Cause)
    (gathered : Gathered) {session : Session} (host : Host) (onData : session.OnData)
    (complete : (session.forEachChunk visitor gathered host).value.1 = .complete) :
    (session.forEachChunk visitor gathered host).session.OnData := by
  fun_induction Session.forEachChunk visitor gathered session host with
  | case1 => cases complete
  | case2 => cases complete
  | case3 _ _ _ _ _ empty => exact (onData.readChunk_ok empty).2.2.2.2
  | case4 => cases complete
  | case5 _ _ _ _ _ _ _ filled _ _ ih => exact ih (onData.readChunk_ok filled).2.2.2.2 complete

theorem advance_fails {session : Session} {host : Host} {error : ArchiveError}
    (failed : (session.advance host).value = .error error) :
    ∃ reason, error = .reading session.setup.path .header reason := by
  have advances := session.advance_advances host
  generalize session.advance host = outcome at *
  cases advances <;> cases failed <;> exact ⟨_, rfl⟩

theorem advance_setup (session : Session) (host : Host) :
    (session.advance host).session.setup = session.setup := by
  have advances := session.advance_advances host
  generalize session.advance host = outcome at *
  cases advances <;> rfl

variable {session : Session} {item : Decoder.HeaderItem}

structure MovedTo (before : Session) (item : Decoder.HeaderItem) (header : Header)
    (after : Session) : Prop where
  left : before.handle.headers = item :: after.handle.headers
  code : item.reply.code = 0
  given : item.header = some header
  data : after.handle.data = item.data
  cursor : after.cursor = .onMember
  current : after.current.map (·.header) = some header

theorem OnData.of_header {header : Header} (onMember : session.cursor = .onMember)
    (current : session.current.map (·.header) = some header)
    (regular : header.info.isDirectory = false) : session.OnData := by
  obtain ⟨lent, stands, same⟩ := Option.map_eq_some_iff.mp current
  constructor
  · exact onMember
  · rw [stands, Option.any_some, same]
    exact regular

theorem MovedTo.onData {before after : Session} {header : Header}
    (movedTo : before.MovedTo item header after) (regular : header.info.isDirectory = false) :
    after.OnData :=
  .of_header movedTo.cursor movedTo.current regular

theorem movedTo_of_advance {host : Host} {header : Header}
    (moved : (session.advance host).value = .ok (some header)) :
    ∃ item, session.MovedTo item header (session.advance host).session := by
  have advances := session.advance_advances host
  generalize session.advance host = outcome at *
  cases advances with
  | exhausted => cases moved
  | failed => cases moved
  | ended => cases moved
  | broken => cases moved
  | @member lent _ code given =>
      cases moved
      cases left : session.handle.headers with
      | nil => simp [Decoder.Handle.nextHeader, left] at given
      | cons item rest =>
          simp only [Decoder.Handle.nextHeader, left] at code given
          obtain ⟨header, itself, rfl⟩ := Option.map_eq_some_iff.mp given
          exact ⟨item, by simp [Decoder.Handle.nextHeader, left], code, itself,
            by simp [Decoder.Handle.nextHeader, left], rfl, rfl⟩

theorem Going.of_advance_none (going : session.Going) {host : Host}
    (moved : (session.advance host).value = .ok none) :
    ∀ item ∈ session.handle.headers.head?, item.reply.code = 1 := by
  have advances := session.advance_advances host
  generalize session.advance host = outcome at *
  cases advances with
  | exhausted past => exact absurd past going.not_exhausted
  | failed => cases moved
  | member => cases moved
  | broken => cases moved
  | ended _ code =>
      intro item first
      obtain ⟨rest, left⟩ := List.head?_eq_some_iff.mp first
      simpa [Decoder.Handle.nextHeader, left] using code

theorem Going.advance_end (going : session.Going) (host : Host)
    (ends : ∀ item ∈ session.handle.headers.head?, item.reply.code = 1) :
    (session.advance host).value = .ok none := by
  have answer : session.handle.nextHeader.1.code = 1 := by
    cases left : session.handle.headers with
    | nil => simp [Decoder.Handle.nextHeader, left]
    | cons item rest => simpa [Decoder.Handle.nextHeader, left] using ends item (by simp [left])
  have advances := session.advance_advances host
  generalize session.advance host = outcome at *
  cases advances with
  | exhausted => rfl
  | failed stopped => exact absurd stopped going.not_failed
  | member _ code => simp [code] at answer
  | ended => rfl
  | broken _ goesOn => exact absurd answer goesOn

end Session

namespace Reader

theorem openSession_refused {path : Path} {options : ReaderOptions} {host after : Host}
    {error : ArchiveError} {reader : Reader}
    (refused : (new path options).openSession host = (.refused error reader, after)) :
    ∃ reason, error = .opening path reason := by
  unfold openSession at refused
  dsimp only at refused
  split at refused
  · cases refused
    exact ⟨_, rfl⟩
  · cases refused

theorem openSession_opened {path : Path} {options : ReaderOptions} {host after : Host}
    {session : Session} (opened : (new path options).openSession host = (.opened session, after)) :
    ∃ script later, host.decoders = some script :: later ∧
      session.handle.headers = script.headers ∧ session.setup = ⟨path, options.normalized⟩ ∧
      session.cursor = .start := by
  unfold openSession at opened
  simp only [releaseStale, new] at opened
  have acquires := acquire_acquires ⟨path, options.normalized⟩ host
  generalize acquire ⟨path, options.normalized⟩ host = outcome at *
  cases acquires with
  | obstructed => cases opened
  | unavailable => cases opened
  | refused => cases opened
  | @ready script later _ decoders =>
      cases opened
      exact ⟨script, later, decoders, rfl, rfl, rfl⟩

end Reader

end ArchiveTraversal
