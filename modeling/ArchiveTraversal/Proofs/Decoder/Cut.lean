import ArchiveTraversal.Proofs.Decoder.Data

/-!
An archive with other headers, such as one cut short after some of them. A session on it does what
the session on the whole archive does, as long as the headers are the same: nothing but a request
for a header can tell them apart.
-/

namespace ArchiveTraversal

namespace Decoder

def Script.upTo (count : Nat) (script : Script) : Script :=
  { script with headers := script.headers.take count }

/-- The handle on a script that has other headers, of which those given are left. -/
def Handle.cut (whole left : List HeaderItem) (handle : Handle) : Handle :=
  { handle with script := { handle.script with headers := whole }, headers := left }

namespace Handle

variable (whole left : List HeaderItem) {handle : Handle}

theorem readData_cut (capacity : Nat) :
    (handle.cut whole left).readData capacity =
      ((handle.readData capacity).1, (handle.readData capacity).2.cut whole left) := by
  unfold readData
  cases data : handle.data with
  | nil => simp [cut, data]
  | cons item rest =>
      cases serving : item.serving with
      | raw count bytes => simp [cut, data, serving]
      | content bytes =>
          cases remaining : bytes.drop capacity with
          | nil => simp [cut, data, serving, remaining]
          | cons byte more => simp [cut, data, serving, remaining]

theorem nextHeader_cut {item : HeaderItem} {rest : List HeaderItem}
    (headers : handle.headers = item :: rest) :
    (handle.cut whole (item :: left)).nextHeader =
      (handle.nextHeader.1, handle.nextHeader.2.cut whole left) := by
  unfold nextHeader
  simp [cut, headers]

end Handle

end Decoder

open Decoder

def Session.cut (whole left : List HeaderItem) (session : Session) : Session :=
  { session with handle := session.handle.cut whole left }

def Outcome.cut {Value : Type} (whole left : List HeaderItem) (outcome : Outcome Value) :
    Outcome Value :=
  { outcome with session := outcome.session.cut whole left }

namespace Session

variable (whole left : List HeaderItem) (session : Session) (host : Host)

theorem readChunk_cut :
    (session.cut whole left).readChunk host = (session.readChunk host).cut whole left := by
  have answer := session.handle.readData_cut whole left session.setup.options.chunkSize
  unfold readChunk
  cases cursor : session.cursor with
  | start => simp only [cut, cursor, Outcome.cut, readError, path]
  | exhausted => simp only [cut, cursor, Outcome.cut]
  | failed => simp only [cut, cursor, Outcome.cut, readError, path]
  | onMember =>
      simp only [cut, cursor, answer]
      split
      · simp only [Outcome.cut, cut, cursor]
      · split <;> rfl

theorem forEachChunk_step {Gathered Cause : Type} (visitor : Visitor Gathered Cause)
    (gathered : Gathered) (goesOn : visitor.halt host = none) :
    session.forEachChunk visitor gathered host =
      let read := session.readChunk host
      match read.value with
      | .error error => ⟨(.unreadable error, gathered), read.session, read.host⟩
      | .ok [] => ⟨(.complete, gathered), read.session, read.host⟩
      | .ok (byte :: more) =>
          match visitor.visit gathered (byte :: more) with
          | (gathered, some cause) => ⟨(.stopped cause, gathered), read.session, read.host⟩
          | (gathered, none) => forEachChunk visitor gathered read.session read.host := by
  rw [forEachChunk]
  simp only [goesOn]
  obtain ⟨answer, moved, after⟩ := session.readChunk host
  cases answer with
  | error error => rfl
  | ok chunk =>
      cases chunk with
      | nil => rfl
      | cons byte more => rfl

theorem forEachChunk_cut {Gathered Cause : Type} (visitor : Visitor Gathered Cause)
    (gathered : Gathered) :
    (session.cut whole left).forEachChunk visitor gathered host =
      (session.forEachChunk visitor gathered host).cut whole left := by
  -- Both walks read the same chunks, so they end in the same way.
  fun_induction forEachChunk visitor gathered session host with
  | case1 gathered session host cause halts =>
      rw [forEachChunk]
      simp only [halts, Outcome.cut]
  | case2 gathered session host goesOn read error failed =>
      have value : (session.readChunk host).value = .error error := failed
      simp only [forEachChunk_step _ _ visitor gathered goesOn, readChunk_cut, Outcome.cut, value]
      rfl
  | case3 gathered session host goesOn read empty =>
      have value : (session.readChunk host).value = .ok [] := empty
      simp only [forEachChunk_step _ _ visitor gathered goesOn, readChunk_cut, Outcome.cut, value]
      rfl
  | case4 gathered session host goesOn read byte more filled last cause refuses =>
      have value : (session.readChunk host).value = .ok (byte :: more) := filled
      simp only [forEachChunk_step _ _ visitor gathered goesOn, readChunk_cut, Outcome.cut, value,
        refuses]
      rfl
  | case5 gathered session host goesOn read byte more filled next accepted ih =>
      have value : (session.readChunk host).value = .ok (byte :: more) := filled
      simp only [forEachChunk_step _ _ visitor gathered goesOn, readChunk_cut, Outcome.cut, value,
        accepted]
      exact ih

theorem Going.advance_cut {session : Session} (going : session.Going) {item : HeaderItem}
    {rest : List HeaderItem} (headers : session.handle.headers = item :: rest) :
    (session.cut whole (item :: left)).advance host =
      (session.advance host).cut whole left := by
  have answer := session.handle.nextHeader_cut whole left headers
  unfold advance
  rcases going with start | onMember
  · simp only [cut, start, answer]
    split <;> rfl
  · simp only [cut, onMember, answer]
    split <;> rfl

/-- Past the last header there is only the end of the archive. -/
theorem Going.advance_past {session : Session} (going : session.Going) :
    ((session.cut whole []).advance host).value = .ok none := by
  have goes : (session.cut whole []).Going := going
  apply goes.advance_end
  intro item none
  cases none

end Session

def Opening.cut (headers : List HeaderItem) : Opening → Opening
  | .opened session => .opened (session.cut headers headers)
  | .refused error reader => .refused error reader

namespace Reader

theorem prepare_cut (whole left : List HeaderItem) (setup : Setup) (handle : Handle)
    (host : Host) :
    prepare setup (handle.cut whole left) host =
      ((prepare setup handle host).1.map (Handle.cut whole left),
        (prepare setup handle host).2) := by
  by_cases filters : Status.warnCode ≤ handle.script.supportFilters.code
  · by_cases formats : Status.warnCode ≤ handle.script.supportFormats.code
    · by_cases file : Status.ofCode handle.script.openFile.code = .ok
      · simp [prepare, attempt, Handle.cut, Handle.answer, filters, formats, file, Except.map]
      · simp [prepare, attempt, Handle.cut, Handle.answer, Handle.reason, filters, formats, file,
          Except.map]
    · simp [prepare, attempt, Handle.cut, Handle.answer, Handle.reason, filters, formats,
        Except.map]
  · simp [prepare, attempt, Handle.cut, Handle.answer, Handle.reason, filters, Except.map]

theorem acquire_headers (setup : Setup) {host : Host} {script : Script}
    {later : List (Option Script)} (headers : List HeaderItem)
    (decoders : host.decoders = some script :: later)
    (clear : obstacle host.tree setup.path = none) :
    acquire setup { host with decoders := some { script with headers := headers } :: later } =
      ((acquire setup host).1.map (Handle.cut headers headers), (acquire setup host).2) := by
  simp only [acquire, clear, Host.allocate, decoders, List.tail_cons]
  exact prepare_cut headers headers setup (.ofScript host.allocated script) _

theorem openSession_headers {path : Path} (options : ReaderOptions) {host : Host}
    {script : Script} {later : List (Option Script)} (headers : List HeaderItem)
    (decoders : host.decoders = some script :: later) (clear : obstacle host.tree path = none) :
    (new path options).openSession
        { host with decoders := some { script with headers := headers } :: later } =
      (((new path options).openSession host).1.cut headers,
        ((new path options).openSession host).2) := by
  have acquired := acquire_headers ⟨path, options.normalized⟩ headers decoders clear
  unfold openSession
  simp only [releaseStale, new, acquired]
  generalize acquire ⟨path, options.normalized⟩ host = outcome
  obtain ⟨_ | _, _⟩ := outcome <;> rfl

theorem openSession_obstructed {path : Path} (options : ReaderOptions) {host : Host}
    {reason : Reason} (blocked : obstacle host.tree path = some reason) :
    (new path options).openSession host =
      (.refused (.opening path reason) (new path options), host) := by
  simp only [openSession, releaseStale, new, acquire, blocked]

theorem openSession_other {path : Path} {options : ReaderOptions} {host after : Host}
    {script : Script} {later : List (Option Script)} {session : Session}
    (headers : List HeaderItem) (decoders : host.decoders = some script :: later)
    (opened : (new path options).openSession host = (.opened session, after)) :
    (new path options).openSession
        { host with decoders := some { script with headers := headers } :: later } =
      (.opened (session.cut headers headers), after) := by
  cases clear : obstacle host.tree path with
  | some reason =>
      rw [openSession_obstructed options clear] at opened
      cases opened
  | none =>
      rw [openSession_headers options headers decoders clear, opened]
      rfl

/-- An archive that was cut short opens as the whole archive does. -/
theorem openSession_upTo {path : Path} {options : ReaderOptions} {host after : Host}
    {script : Script} {later : List (Option Script)} {session : Session} (count : Nat)
    (decoders : host.decoders = some script :: later)
    (opened : (new path options).openSession host = (.opened session, after)) :
    (new path options).openSession
        { host with decoders := some (script.upTo count) :: later } =
      (.opened (session.cut (script.headers.take count) (script.headers.take count)), after) :=
  openSession_other (script.headers.take count) decoders opened

end Reader

end ArchiveTraversal
