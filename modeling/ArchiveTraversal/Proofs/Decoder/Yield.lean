import ArchiveTraversal.Proofs.Session.Standstill
import ArchiveTraversal.Proofs.Sink

/-!
What is to be had of a member's data by reading all of it, and what cuts it short. A failure stands
at one place in the data, and every walk that comes so far runs into it, whoever reads and in
whatever pieces. So draining and copying give the same bytes before the same failure.
-/

namespace ArchiveTraversal

namespace Decoder

/-- What is wrong with the data, if it does not just end. -/
def fault? : List DataItem → Option Reason
  | [] => none
  | item :: rest =>
      match item.serving with
      | .raw count _ =>
          if count < 0 then some (item.diagnostic.reason (Session.dataCode count))
          else if count = 0 then none else fault? rest
      | .content bytes => if bytes = [] then none else fault? rest

namespace Handle

variable {handle : Handle} {capacity : Nat}

theorem fault?_of_empty (positive : 0 < capacity)
    (empty : (handle.readData capacity).1.count = 0) : fault? handle.data = none := by
  have serves := handle.readData_serves capacity
  generalize handle.readData capacity = read at *
  cases serves with
  | nothing left => rw [left, fault?]
  | raw left serving =>
      dsimp only at empty
      rw [left]
      simp [fault?, serving, empty]
  | whole left serving =>
      have none := List.length_eq_zero_iff.mp (Int.ofNat_eq_zero.mp empty)
      rw [left]
      simp [fault?, serving, none]
  | part => dsimp only at empty; omega

theorem fault?_of_negative (negative : (handle.readData capacity).1.count < 0) :
    fault? handle.data = some ((handle.readData capacity).2.reason
      (Session.dataCode (handle.readData capacity).1.count)) := by
  have serves := handle.readData_serves capacity
  generalize handle.readData capacity = read at *
  cases serves with
  | nothing => cases negative
  | raw left serving =>
      rw [left]
      simp only [fault?, serving]
      exact if_pos negative
  | whole => exact absurd negative (Int.not_lt.mpr (Int.natCast_nonneg _))
  | part => exact absurd negative (Int.not_lt.mpr (Int.natCast_nonneg _))

theorem fault?_of_filled (filled : 0 < (handle.readData capacity).1.count) :
    fault? handle.data = fault? (handle.readData capacity).2.data := by
  have serves := handle.readData_serves capacity
  generalize handle.readData capacity = read at *
  cases serves with
  | nothing => cases filled
  | raw left serving =>
      dsimp only at filled
      rw [left]
      simp only [fault?, serving]
      rw [if_neg (by omega), if_neg (by omega)]
  | whole left serving =>
      have some := List.ne_nil_of_length_pos (Int.ofNat_lt.mp filled)
      rw [left]
      simp [fault?, serving, some]
  | part left serving long =>
      have some := List.ne_nil_of_length_pos (Nat.zero_lt_of_lt long)
      rw [left]
      simp [fault?, serving, some, long]

end Handle

end Decoder

open Decoder

namespace Session

variable {Gathered Cause : Type} {session : Session}

theorem OnData.forEachChunk_fault (visitor : Visitor Gathered Cause) (gathered : Gathered)
    (onData : session.OnData) (positive : 0 < session.setup.options.chunkSize) (host : Host) :
    ((session.forEachChunk visitor gathered host).value.1 = .complete →
        (fault? session.handle.data).map (session.readError .data) = none) ∧
      ∀ error, (session.forEachChunk visitor gathered host).value.1 = .unreadable error →
        (fault? session.handle.data).map (session.readError .data) = some error := by
  fun_induction Session.forEachChunk visitor gathered session host with
  | case1 => exact ⟨fun ends => (by cases ends), fun _ ends => by cases ends⟩
  | case2 _ session host _ _ error failed =>
      refine ⟨fun ends => (by cases ends), fun _ same => ?_⟩
      cases same
      have negative : session.reply.count < 0 := onData.readChunk_error failed
      have read : (session.readChunk host).value = .error error := failed
      rw [onData.readChunk_eq, if_pos negative] at read
      rw [Handle.fault?_of_negative negative]
      exact congrArg some (Except.error.inj read)
  | case3 _ session host _ _ empty =>
      have none := Int.le_antisymm (onData.readChunk_empty positive empty)
        (onData.readChunk_ok empty).1
      refine ⟨fun _ => ?_, fun _ ends => by cases ends⟩
      rw [Handle.fault?_of_empty positive none]
      rfl
  | case4 => exact ⟨fun ends => (by cases ends), fun _ ends => by cases ends⟩
  | case5 _ session host _ _ _ _ filled _ _ ih =>
      obtain ⟨_, _, handle, setup, stays⟩ := onData.readChunk_ok filled
      have rest := ih stays (by rw [setup]; exact positive)
      rw [Handle.fault?_of_filled (onData.readChunk_filled filled), ← handle]
      have same : (session.readChunk host).session.readError = session.readError := by
        funext stage reason
        rw [readError, readError, path, path, setup]
      rw [← same]
      exact rest

/-- What is to be had of a member before the end of its data, or before what is wrong with it. A
directory has none. -/
def yield (session : Session) : Bytes :=
  if session.current.any (·.header.isDirectory) then []
  else served session.setup.options.chunkSize session.handle.data

def failure? (session : Session) : Option ArchiveError :=
  if session.current.any (·.header.isDirectory) then none
  else (fault? session.handle.data).map (session.readError .data)

theorem yields_congr {one other : Session} (path : other.path = one.path)
    (current : other.current.map (·.header) = one.current.map (·.header))
    (data : other.handle.data = one.handle.data)
    (alike : served other.setup.options.chunkSize one.handle.data =
      served one.setup.options.chunkSize one.handle.data) :
    other.yield = one.yield ∧ other.failure? = one.failure? := by
  have directory : other.current.any (·.header.isDirectory) =
      one.current.any (·.header.isDirectory) := by
    have mapped := congrArg (Option.any Header.isDirectory) current
    simpa [Option.any_map, Function.comp_def] using mapped
  have error : other.readError = one.readError := by
    funext stage reason
    rw [readError, readError, path]
  unfold yield failure?
  rw [directory, data, error, alike]
  exact ⟨rfl, rfl⟩

theorem OnData.yield_eq (onData : session.OnData) :
    session.yield = served session.setup.options.chunkSize session.handle.data := by
  rw [yield, onData.regular]
  rfl

theorem OnData.failure?_eq (onData : session.OnData) :
    session.failure? = (fault? session.handle.data).map (session.readError .data) := by
  rw [failure?, onData.regular]
  rfl

theorem onData_or_dry (onMember : session.cursor = .onMember) :
    session.OnData ∨ session.yield = [] ∧ session.failure? = none ∧
      ∀ host, session.readChunk host = ⟨.ok [], session, host⟩ := by
  cases is : session.current.any (·.header.isDirectory) with
  | false => exact .inl ⟨onMember, is⟩
  | true =>
      refine .inr ⟨by rw [yield, is]; rfl, by rw [failure?, is]; rfl, fun host => ?_⟩
      have off : ¬ session.OnData := fun onData => by cases is.symm.trans onData.regular
      rw [readChunk_dry off, dry, onMember]

theorem collector_takes {gathered last all : List Bytes}
    (takes : collector.Takes gathered all last) : last = all.reverse ++ gathered := by
  induction takes with
  | nil => rfl
  | @cons gathered next last chunk rest accepted taken ih =>
      cases accepted
      rw [ih, List.reverse_cons, List.append_assoc]
      rfl

theorem OnData.drain_value (onData : session.OnData)
    (positive : 0 < session.setup.options.chunkSize) (host : Host) :
    (session.drain host).value =
      (chunks session.setup.options.chunkSize session.handle.data, session.failure?) := by
  have walked := session.forEachChunk_walked collector [] host onData positive
  obtain ⟨sound, broken⟩ := onData.forEachChunk_fault collector [] positive host
  rw [← onData.failure?_eq] at sound broken
  unfold drain
  generalize session.forEachChunk collector [] host = walk at *
  obtain ⟨⟨ends, gathered⟩, after, hostAfter⟩ := walk
  cases walked with
  | complete taken => simp [collector_takes taken, sound rfl]
  | unreadable error taken => simp [collector_takes taken, broken error rfl]
  | halted _ _ halts => cases halts
  | refused _ _ refuses => cases refuses

theorem drain_yields (onMember : session.cursor = .onMember)
    (positive : 0 < session.setup.options.chunkSize) (host : Host) :
    (session.drain host).value.1.flatten = session.yield ∧
      (session.drain host).value.2 = session.failure? := by
  rcases onData_or_dry onMember with onData | ⟨nothing, well, read⟩
  · rw [onData.drain_value positive, onData.yield_eq]
    exact ⟨flatten_chunks positive _, rfl⟩
  · rw [drain, forEachChunk_of_empty collector [] rfl (read host), nothing, well]
    exact ⟨rfl, rfl⟩

section

variable {State : Type} (sink : Sink State)

/-- What is copied of a chunk is what arrives of it, and it counts if it has arrived whole. The sink
is written to as if it were not recorded. -/
theorem copier_visit (gathered : Nat × State × List Bytes) (chunk : Bytes) :
    let shown := (copier sink.recording).visit gathered chunk
    (copier sink).visit (gathered.1, gathered.2.1) chunk =
        ((shown.1.1, shown.1.2.1), shown.2) ∧
      (shown.2 = none → shown.1.1 = gathered.1 + chunk.length) ∧
      ∃ arrived, Sink.Arrives chunk arrived shown.2 ∧
        shown.1.2.2.reverse.flatten = gathered.2.2.reverse.flatten ++ arrived := by
  obtain ⟨total, state, earlier⟩ := gathered
  obtain ⟨pieces, written, arrives⟩ := sink.writeAll_recording state earlier chunk
  have bytes : (pieces ++ earlier).reverse.flatten =
      earlier.reverse.flatten ++ pieces.reverse.flatten := by
    rw [List.reverse_append, List.flatten_append]
  simp only [copier, written]
  generalize sink.writeAll state chunk = ending at *
  obtain ⟨after, failure⟩ := ending
  cases failure with
  | none => exact ⟨rfl, fun _ => rfl, _, arrives, bytes⟩
  | some error => exact ⟨rfl, fun failed => (by cases failed), _, arrives, bytes⟩

variable {sink} {gathered last : Nat × State × List Bytes}

theorem copier_takes {chunks : List Bytes}
    (taken : (copier sink.recording).Takes gathered chunks last) :
    last.1 = gathered.1 + chunks.flatten.length ∧
      last.2.2.reverse.flatten = gathered.2.2.reverse.flatten ++ chunks.flatten := by
  induction taken with
  | nil => simp
  | @cons gathered next last chunk rest accepted _ ih =>
      obtain ⟨_, counts, arrived, ⟨_, whole⟩, bytes⟩ := copier_visit sink gathered chunk
      rw [accepted] at counts whole bytes
      obtain ⟨total, further⟩ := ih
      rw [whole.mpr rfl] at bytes
      rw [total, further, counts rfl, bytes, List.flatten_cons, List.length_append]
      exact ⟨Nat.add_assoc .., List.append_assoc ..⟩

theorem copier_refuses {chunk : Bytes} {error : IoError}
    (refuses : (copier sink.recording).visit gathered chunk = (last, some error)) :
    ∃ part, part <+: chunk ∧ part ≠ chunk ∧
      last.2.2.reverse.flatten = gathered.2.2.reverse.flatten ++ part := by
  obtain ⟨_, _, part, ⟨front, whole⟩, bytes⟩ := copier_visit sink gathered chunk
  rw [refuses] at whole bytes
  exact ⟨part, front, fun same => (by cases whole.mp same), bytes⟩

end

end Session

namespace Sink

variable {State : Type} {sink : Sink State} {room : State → Option Nat} {refusal : IoError}

/-- What comes of data on the way to a sink: it all gets there, and if it has been cut short that is
the end of it; or it does not fit. -/
def delivery (room : Option Nat) (refusal : IoError) (data : Bytes)
    (failure : Option ArchiveError) : Except CopyError Nat × Bytes :=
  let whole : Except CopyError Nat := match failure with
    | none => .ok data.length
    | some error => .error (.archive error)
  match room with
  | none => (whole, data)
  | some space =>
      if space < data.length then (.error (.io refusal), data.take space) else (whole, data)

theorem delivery_of_fits {room : Option Nat} {data : Bytes} (fits : Fits room data.length)
    (refusal : IoError) (failure : Option ArchiveError) :
    delivery room refusal data failure = (match failure with
      | none => .ok data.length
      | some error => .error (.archive error), data) := by
  unfold delivery
  cases room with
  | none => rfl
  | some space => exact if_neg (Nat.not_lt.mpr (fits space rfl))

theorem fits_or_spills (room : Option Nat) (count : Nat) :
    Fits room count ∨ ∃ space, room = some space ∧ space < count := by
  cases room with
  | none => exact .inl (fits_none count)
  | some space =>
      by_cases less : space < count
      · exact .inr ⟨space, rfl, less⟩
      · refine .inl fun other same => ?_
        cases same
        exact Nat.not_lt.mp less

theorem HasRoom.takes (hasRoom : sink.HasRoom room refusal) {all : List Bytes}
    {gathered last : Nat × State × List Bytes}
    (taken : (Session.copier sink.recording).Takes gathered all last) :
    Fits (room gathered.2.1) all.flatten.length ∧
      room last.2.1 = (room gathered.2.1).map (· - all.flatten.length) := by
  induction taken with
  | nil gathered =>
      refine ⟨fun _ _ => Nat.zero_le _, ?_⟩
      cases room gathered.2.1 <;> rfl
  | @cons gathered next last chunk rest accepted taken ih =>
      obtain ⟨count, state, earlier⟩ := gathered
      rcases fits_or_spills (room state) chunk.length with fits | ⟨space, left, less⟩
      · obtain ⟨after, pieces, written, _, less⟩ := hasRoom.fits state earlier chunk fits
        simp only [Session.copier, written, Prod.mk.injEq, and_true] at accepted
        subst accepted
        obtain ⟨fitsToo, left⟩ := ih
        dsimp only at *
        constructor
        · intro space there
          have first := fits space there
          have second := fitsToo (space - chunk.length) (by rw [less, there]; rfl)
          rw [List.flatten_cons, List.length_append]
          omega
        · rw [left, less, Option.map_map, List.flatten_cons, List.length_append]
          congr 1
          funext space
          exact Nat.sub_sub ..
      · obtain ⟨after, pieces, written, _⟩ := hasRoom.spills state earlier chunk space left less
        simp [Session.copier, written] at accepted

theorem HasRoom.refuses (hasRoom : sink.HasRoom room refusal) {chunk : Bytes}
    {gathered last : Nat × State × List Bytes} {cause : IoError}
    (refuses : (Session.copier sink.recording).visit gathered chunk = (last, some cause)) :
    ∃ space, room gathered.2.1 = some space ∧ space < chunk.length ∧ cause = refusal ∧
      last.2.2.reverse.flatten = gathered.2.2.reverse.flatten ++ chunk.take space := by
  obtain ⟨count, state, earlier⟩ := gathered
  rcases fits_or_spills (room state) chunk.length with fits | ⟨space, left, less⟩
  · obtain ⟨after, pieces, written, _⟩ := hasRoom.fits state earlier chunk fits
    simp [Session.copier, written] at refuses
  · obtain ⟨after, pieces, written, part⟩ := hasRoom.spills state earlier chunk space left less
    simp only [Session.copier, written, Prod.mk.injEq, Option.some.injEq] at refuses
    obtain ⟨rfl, rfl⟩ := refuses
    exact ⟨space, left, less, rfl, by simp [part]⟩

end Sink

namespace Session

variable {State : Type} {sink : Sink State} {room : State → Option Nat} {refusal : IoError}
  {session : Session}

theorem OnData.copyTo_value (onData : session.OnData)
    (positive : 0 < session.setup.options.chunkSize) (hasRoom : sink.HasRoom room refusal)
    (state : State) (host : Host) :
    let copied := session.copyTo sink.recording (state, []) host
    (copied.value.1, copied.value.2.2.reverse.flatten) =
      Sink.delivery (room state) refusal session.yield session.failure? := by
  have walked := session.forEachChunk_walked (copier sink.recording) (0, state, []) host onData
    positive
  obtain ⟨sound, broken⟩ :=
    onData.forEachChunk_fault (copier sink.recording) (0, state, []) positive host
  have whole := flatten_chunks positive session.handle.data
  rw [← onData.yield_eq] at whole
  rw [← onData.failure?_eq] at sound broken
  unfold copyTo
  dsimp only
  generalize session.forEachChunk (copier sink.recording) (0, state, []) host = walk at *
  obtain ⟨⟨ends, count, after, pieces⟩, sessionAfter, hostAfter⟩ := walk
  generalize chunks session.setup.options.chunkSize session.handle.data = all at *
  cases walked with
  | complete taken =>
      obtain ⟨counted, bytes⟩ := copier_takes taken
      obtain ⟨fits, _⟩ := hasRoom.takes taken
      have none := sound rfl
      rw [whole] at counted bytes fits
      rw [Sink.delivery_of_fits fits, none]
      dsimp only at counted bytes
      simp [counted, bytes]
  | unreadable error taken =>
      obtain ⟨_, bytes⟩ := copier_takes taken
      obtain ⟨fits, _⟩ := hasRoom.takes taken
      have some := broken error rfl
      rw [whole] at bytes fits
      rw [Sink.delivery_of_fits fits, some]
      dsimp only at bytes
      simp [bytes]
  | halted _ _ halts => cases halts
  | @refused between _ seen rest chunk cause split taken refuses =>
      obtain ⟨_, bytes⟩ := copier_takes taken
      obtain ⟨fits, left⟩ := hasRoom.takes taken
      obtain ⟨space, there, less, rfl, part⟩ := hasRoom.refuses refuses
      rw [left, Option.map_eq_some_iff] at there
      obtain ⟨before, there, rfl⟩ := there
      have taken := fits before there
      -- The chunk that is refused goes beyond the room that is left, so the data does as well.
      have spills : before < session.yield.length := by
        rw [← whole, split, List.flatten_append, List.flatten_cons, List.length_append,
          List.length_append]
        omega
      dsimp only at *
      simp only [Sink.delivery, there]
      rw [if_pos spills, part, bytes, ← whole, split, List.flatten_append, List.flatten_cons,
        List.take_append, List.take_of_length_le taken, List.take_append_of_le_length (by omega)]
      rfl

theorem copyTo_delivers (onMember : session.cursor = .onMember)
    (positive : 0 < session.setup.options.chunkSize) (hasRoom : sink.HasRoom room refusal)
    (state : State) (host : Host) :
    let copied := session.copyTo sink.recording (state, []) host
    (copied.value.1, copied.value.2.2.reverse.flatten) =
      Sink.delivery (room state) refusal session.yield session.failure? := by
  rcases onData_or_dry onMember with onData | ⟨nothing, well, read⟩
  · exact onData.copyTo_value positive hasRoom state host
  · rw [copyTo, forEachChunk_of_empty (copier sink.recording) (0, state, []) rfl (read host),
      nothing, well, Sink.delivery_of_fits fun _ _ => Nat.zero_le _]
    rfl

end Session

end ArchiveTraversal
