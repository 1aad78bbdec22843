import ArchiveTraversal.Proofs.Journal.Capacity
import ArchiveTraversal.Proofs.Session.Twins

/-!
A reader that has been used does what a new one does. Whatever came of its earlier sessions, all
that it keeps is a buffer, and the handle of a session that was abandoned; the handle is freed
before anything else is done, and the buffer is never looked at. So a program on the reader and one
on a new reader go side by side.
-/

namespace ArchiveTraversal

open Decoder Host

def Operation.opens : Operation → Bool
  | .openSession => true
  | _ => false

def Reader.staleCalls : Reader → List (Nat × Call)
  | .closed .. => []
  | .abandoned session => [(session.handle.number, .free)]

section

variable {here there : Origin} {count : Nat} {host otherHost : Host}

namespace Host

theorem Parallel.fewer (parallel : Parallel here there (count + 1) host otherHost) :
    Parallel here there count host otherHost := by
  refine ⟨parallel.tree, ?_, parallel.allocated, parallel.calls⟩
  have shorter := congrArg (List.take count) parallel.decoders
  rwa [List.take_take, List.take_take, Nat.min_eq_left (Nat.le_succ count)] at shorter

theorem Parallel.callAll (parallel : Parallel here there count host otherHost) (index : Nat)
    (calls : List Call) : Parallel here there count (host.callAll (here.number + index) calls)
      (otherHost.callAll (there.number + index) calls) := by
  induction calls generalizing host otherHost with
  | nil => exact parallel
  | cons call rest ih => exact ih (parallel.call index call)

theorem Parallel.handedOut (parallel : Parallel here there (count + 1) host otherHost) :
    otherHost.decoders.head? = host.decoders.head? ∧
      Parallel here there count host.handedOut otherHost.handedOut := by
  obtain ⟨index, number, numberToo⟩ := parallel.allocated
  have next := congrArg List.head? parallel.decoders
  have rest := congrArg List.tail parallel.decoders
  rw [List.head?_take, List.head?_take, if_neg (Nat.succ_ne_zero count),
    if_neg (Nat.succ_ne_zero count)] at next
  rw [List.tail_take_eq_take_tail, List.tail_take_eq_take_tail] at rest
  exact ⟨next, parallel.tree, rest,
    ⟨index + 1, congrArg (· + 1) number, congrArg (· + 1) numberToo⟩, parallel.calls⟩

end Host

theorem Host.allocate_eq (host : Host) :
    host.allocate = (host.decoders.head?.join.map (Handle.ofScript host.allocated),
      host.handedOut.call host.allocated .allocate) := by
  unfold allocate
  split
  · rename_i decoders
    simp [decoders, handedOut]
  · rename_i nothing
    have none : host.decoders.head?.join = none := by
      cases decoders : host.decoders with
      | nil => rfl
      | cons first later =>
          cases first with
          | none => rfl
          | some script => exact absurd decoders (nothing script later)
    rw [none]
    rfl

namespace Reader

inductive Acquired (here there : Origin) (count : Nat) :
    Except Reason Handle × Host → Except Reason Handle × Host → Prop
  | refused {host otherHost : Host} (reason : Reason)
      (parallel : Parallel here there count host otherHost) :
      Acquired here there count (.error reason, host) (.error reason, otherHost)
  | ready {host otherHost : Host} (index : Nat) (script : Script)
      (parallel : Parallel here there count host otherHost) :
      Acquired here there count
        (.ok ((Handle.ofScript (here.number + index) script).answer script.openFile), host)
        (.ok ((Handle.ofScript (there.number + index) script).answer script.openFile), otherHost)

theorem prepare_parallel (parallel : Parallel here there count host otherHost) (setup : Setup)
    (index : Nat) (script : Script) :
    Acquired here there count (prepare setup (.ofScript (here.number + index) script) host)
      (prepare setup (.ofScript (there.number + index) script) otherHost) := by
  have refused : ∀ {calls : List Call} {reply : Reply}, Refuses setup script calls reply →
      Acquired here there count (prepare setup (.ofScript (here.number + index) script) host)
        (prepare setup (.ofScript (there.number + index) script) otherHost) := by
    intro calls reply refuses
    rw [prepare_refused host refuses, prepare_refused otherHost refuses]
    exact .refused _ (parallel.callAll index _)
  by_cases filters : Status.warnCode ≤ script.supportFilters.code
  · by_cases formats : Status.warnCode ≤ script.supportFormats.code
    · by_cases opened : script.openFile.code = 0
      · rw [prepare_ready host filters formats opened,
          prepare_ready otherHost filters formats opened]
        exact .ready index script (parallel.callAll index _)
      · exact refused (.file filters formats opened)
    · exact refused (.formats filters (Int.not_le.mp formats))
  · exact refused (.filters (Int.not_le.mp filters))

theorem acquire_parallel (parallel : Parallel here there (count + 1) host otherHost)
    (setup : Setup) :
    Acquired here there count (acquire setup host) (acquire setup otherHost) := by
  obtain ⟨next, onward⟩ := parallel.handedOut
  obtain ⟨index, number, numberToo⟩ := parallel.allocated
  have called := onward.call index .allocate
  rw [← number, ← numberToo] at called
  unfold acquire
  rw [parallel.tree]
  cases obstacle host.tree setup.path with
  | some reason => exact .refused reason parallel.fewer
  | none =>
      rw [allocate_eq, allocate_eq, next]
      cases host.decoders.head?.join with
      | none => exact .refused .noDecoder called
      | some script =>
          rw [number, numberToo] at called ⊢
          exact prepare_parallel called setup index script

end Reader

inductive Position.Twin (here there : Origin) : Position → Position → Prop
  | closed (setup : Setup) (buffer otherBuffer : Bytes) :
      Twin here there (.atRest (.closed setup buffer)) (.atRest (.closed setup otherBuffer))
  | abandoned {one other : Session} (twin : one.Twin here there other) :
      Twin here there (.atRest (.abandoned one)) (.atRest (.abandoned other))
  | inSession {one other : Session} (twin : one.Twin here there other) :
      Twin here there (.inSession one) (.inSession other)

structure Performed.Same (here there : Origin) (count : Nat) (done otherDone : Performed) :
    Prop where
  answer : otherDone.answer = done.answer
  position : done.position.Twin here there otherDone.position
  parallel : Parallel here there count done.host otherDone.host

theorem Session.Same.performed {Value : Type} {outcome otherOutcome : Outcome Value}
    (same : Session.Same here there count outcome otherOutcome) {answer otherAnswer : Answer}
    (told : otherAnswer = answer) :
    Performed.Same here there count (Session.stay outcome answer)
      (Session.stay otherOutcome otherAnswer) :=
  ⟨told, .inSession same.twin, same.parallel⟩

theorem Session.Twin.closed {one other : Session} (twin : one.Twin here there other)
    (host otherHost : Host) : Position.Twin here there (.atRest (one.close host).2.1)
      (.atRest (other.close otherHost).2.1) := by
  simp only [Session.close, twin.setup]
  exact .closed one.setup one.buffer other.buffer

theorem Session.Twin.perform {one other : Session} (twin : one.Twin here there other)
    (parallel : Parallel here there count host otherHost) (operation : Operation) :
    Performed.Same here there count (one.perform host operation)
      (other.perform otherHost operation) := by
  obtain ⟨clean, freed⟩ := twin.close parallel
  have closed := twin.closed host otherHost
  -- To look at a session is to change nothing, on either side.
  have still : ∀ {answer otherAnswer : Answer}, otherAnswer = answer →
      Performed.Same here there count ⟨answer, .inSession one, host⟩
        ⟨otherAnswer, .inSession other, otherHost⟩ :=
    fun told => ⟨told, .inSession twin, parallel⟩
  cases operation with
  | advance =>
      have same := twin.advance parallel
      exact same.performed (by simp only [same.value])
  | read =>
      have same := twin.readChunk parallel
      exact same.performed (by simp only [same.value])
  | drain =>
      have same := twin.forEachChunk collector (fun _ => rfl) [] parallel
      refine ⟨?_, .inSession same.twin, same.parallel⟩
      simp only [Session.perform, Session.stay, Session.drain, same.value]
  | copy sink state =>
      have same := twin.forEachChunk (copier sink.recording) (fun _ => rfl) (0, state, []) parallel
      refine ⟨?_, .inSession same.twin, same.parallel⟩
      simp only [Session.perform, Session.stay, Session.copyTo, same.value]
  | skip =>
      have same := twin.skipEntry parallel
      exact same.performed (by simp only [same.value])
  | close => exact ⟨by simp only [Session.perform, clean], closed, freed⟩
  | drop => exact ⟨rfl, closed, freed⟩
  | abandon => exact ⟨rfl, .abandoned twin, parallel⟩
  | entry => exact still (by simp only [Session.entry, twin.cursor, twin.current])
  | format => exact still (by rw [Session.formatName, twin.handle]; rfl)
  | filters =>
      exact still (by
        rw [Session.filters, twin.handle, Handle.filterNames_renumbered, Session.filters])
  | entriesSeen => exact still (by rw [twin.entriesSeen])
  | path => exact still (by rw [twin.keepsPace.path])
  | debug =>
      have same : other.debug = one.debug := by
        unfold Session.debug
        rw [twin.keepsPace.path, twin.cursor, twin.entriesSeen]
      exact still (congrArg Answer.text same)
  | openSession => exact still rfl
  | isOpen => exact still rfl
  | options => exact still rfl

/-- Opening a reader that holds nothing goes the same whatever is in its buffer. -/
theorem Reader.opening_parallel (parallel : Parallel here there (count + 1) host otherHost)
    (setup : Setup) (buffer otherBuffer : Bytes) :
    Performed.Same here there count ((Reader.closed setup buffer).perform host .openSession)
      ((Reader.closed setup otherBuffer).perform otherHost .openSession) := by
  have acquired := acquire_parallel parallel setup
  simp only [Reader.perform, Reader.openSession, releaseStale]
  generalize acquire setup host = outcome at *
  generalize acquire setup otherHost = otherOutcome at *
  cases acquired with
  | refused reason after => exact ⟨rfl, .closed setup buffer otherBuffer, after⟩
  | ready index script after =>
      refine ⟨rfl, .inSession ⟨rfl, rfl, rfl, rfl, rfl, index, rfl, rfl⟩, after.event _ _⟩

theorem Reader.perform_openSession (reader : Reader) (host : Host) :
    reader.perform host .openSession =
      (Reader.closed reader.setup (reader.releaseStale host).2.1).perform
        (reader.releaseStale host).2.2 .openSession := by
  cases reader <;> rfl

theorem Position.Twin.perform {one other : Position} (twin : one.Twin here there other)
    (operation : Operation)
    (parallel : Parallel here there (count + if operation.opens then 1 else 0) host otherHost) :
    Performed.Same here there count (one.perform host operation)
      (other.perform otherHost operation) := by
  cases twin with
  | inSession twin =>
      apply twin.perform
      cases operation with
      | openSession => exact parallel.fewer
      | _ => exact parallel
  | closed setup buffer otherBuffer =>
      cases operation with
      | openSession => exact Reader.opening_parallel parallel setup buffer otherBuffer
      | _ => exact ⟨rfl, .closed setup buffer otherBuffer, parallel⟩
  | @abandoned first second twin =>
      have still : ∀ {answer otherAnswer : Answer}, otherAnswer = answer →
          Parallel here there count host otherHost →
          Performed.Same here there count ⟨answer, .atRest (.abandoned first), host⟩
            ⟨otherAnswer, .atRest (.abandoned second), otherHost⟩ :=
        fun told parallel => ⟨told, .abandoned twin, parallel⟩
      have setups : Reader.setup (.abandoned second) = Reader.setup (.abandoned first) := twin.setup
      cases operation with
      | openSession =>
          have noticed := parallel.event (.staleSession first.path) (.staleSession second.path)
          have freed := (twin.close noticed).2
          rw [Position.perform, Position.perform, Reader.perform_openSession,
            Reader.perform_openSession (.abandoned second)]
          rw [setups]
          exact Reader.opening_parallel freed first.setup first.buffer second.buffer
      | close =>
          obtain ⟨clean, freed⟩ := twin.close parallel
          exact ⟨congrArg Answer.closed clean, twin.closed host otherHost, freed⟩
      | path => exact still (by rw [Reader.path, setups, Reader.path]) parallel
      | options => exact still (by rw [Reader.options, setups, Reader.options]) parallel
      | debug =>
          have held : Reader.isOpen (.abandoned second) = Reader.isOpen (.abandoned first) := rfl
          have same : Reader.debug (.abandoned second) = Reader.debug (.abandoned first) := by
            unfold Reader.debug Reader.path Reader.options
            rw [setups, held]
          exact still (congrArg Answer.text same) parallel
      | _ => exact still rfl parallel

theorem Position.Twin.runProgram {one other : Position} (twin : one.Twin here there other)
    {operations : List Operation}
    (parallel : Parallel here there (operations.countP Operation.opens) host otherHost) :
    (runProgram operations other otherHost).1 = (runProgram operations one host).1 ∧
      Parallel here there 0 (runProgram operations one host).2.2
        (runProgram operations other otherHost).2.2 := by
  induction operations generalizing one other host otherHost with
  | nil => exact ⟨rfl, parallel⟩
  | cons operation rest ih =>
      rw [List.countP_cons] at parallel
      have same := twin.perform operation parallel
      obtain ⟨answers, after⟩ := ih same.position same.parallel
      refine ⟨?_, after⟩
      simp only [ArchiveTraversal.runProgram, same.answer, answers]

end

theorem Position.setup_runProgram (operations : List Operation) (position : Position)
    (host : Host) :
    (runProgram operations position host).2.1.setup = position.setup := by
  induction operations generalizing position host with
  | nil => rfl
  | cons operation rest ih => exact (ih ..).trans (position.perform_fits host operation).kept

theorem Reader.releaseStale_host (reader : Reader) (host : Host) :
    (reader.releaseStale host).2.2.tree = host.tree ∧
      (reader.releaseStale host).2.2.decoders = host.decoders ∧
      (reader.releaseStale host).2.2.allocated = host.allocated ∧
      (reader.releaseStale host).2.2.calls = host.calls ++ reader.staleCalls := by
  cases reader with
  | closed setup buffer => exact ⟨rfl, rfl, rfl, (List.append_nil _).symm⟩
  | abandoned session =>
      refine ⟨rfl, rfl, rfl, ?_⟩
      have freed := session.calls_close (host.event (.staleSession session.path))
      rw [(host.event_quiet _).calls] at freed
      exact freed

/-- What is left in a buffer does not show in anything that is done from then on. -/
theorem Session.answers_of_buffer (session : Session) (buffer : Bytes) (later : List Operation)
    (host : Host) :
    (runProgram later (.inSession { session with buffer := buffer }) host).1 =
      (runProgram later (.inSession session) host).1 := by
  let here : Origin := ⟨0, host.calls⟩
  have index : ∀ number, number = here.number + number := fun number => (Nat.zero_add number).symm
  have twin : session.Twin here here { session with buffer := buffer } :=
    ⟨rfl, rfl, rfl, rfl, rfl, session.handle.number, index _, index _⟩
  have none : host.calls = here.with [] := (List.append_nil _).symm
  exact ((Position.Twin.inSession twin).runProgram
    ⟨rfl, rfl, ⟨host.allocated, index _, index _⟩, [], none, none⟩).1

theorem Session.readChunk_filled {session : Session} {host : Host} {chunk : Bytes}
    (read : (session.readChunk host).value = .ok chunk) :
    chunk = [] ∨ chunk = session.reply.filled := by
  have reads := session.readChunk_reads host
  generalize session.readChunk host = outcome at *
  cases reads with
  | start => cases read
  | exhausted => cases read; exact .inl rfl
  | failed => cases read
  | directory => cases read; exact .inl rfl
  | chunk => cases read; exact .inr rfl
  | broken => cases read

/-- However a reader has been used, once it is at rest it opens the archive anew: from then on it
answers as a new reader does, and makes the same calls on its decoders. All that comes before them is
that the handle of an abandoned session is freed. The new session has seen no member and stands on
none. A chunk is what the decoder has filled in at that very call, and nothing that is left in the
buffer ever shows. -/
theorem reused_reader_behaves_as_new (path : Path) (options : ReaderOptions)
    {history : List Operation} {host between : Host} {reader : Reader}
    (used : (runProgram history (.atRest (.new path options)) host).2 = (.atRest reader, between))
    {fresh : Host} (tree : fresh.tree = between.tree) {operations : List Operation}
    (decoders : fresh.decoders.take (operations.countP Operation.opens + 1) =
      between.decoders.take (operations.countP Operation.opens + 1)) :
    let again := runProgram (.openSession :: operations) (.atRest reader) between
    let new := runProgram (.openSession :: operations) (.atRest (.new path options)) fresh
    again.1 = new.1 ∧
    (∃ made, new.2.2.calls = (Origin.mk fresh.allocated fresh.calls).with made ∧
      again.2.2.calls =
        (Origin.mk between.allocated (between.calls ++ reader.staleCalls)).with made) ∧
    (∀ session opened, reader.openSession between = (.opened session, opened) →
      session.entriesSeen = 0 ∧ session.entry = none) ∧
    ∀ session, again.2.1 = .inSession session →
      (∀ chunk, (session.readChunk again.2.2).value = .ok chunk →
        chunk = [] ∨ chunk = session.reply.filled) ∧
      ∀ buffer later, (runProgram later (.inSession { session with buffer := buffer }) again.2.2).1 =
        (runProgram later (.inSession session) again.2.2).1 := by
  intro again new
  have setup : reader.setup = ⟨path, options.normalized⟩ := by
    have kept := Position.setup_runProgram history (.atRest (.new path options)) host
    rw [used] at kept
    exact kept
  obtain ⟨sameTree, sameDecoders, sameNumber, calls⟩ := reader.releaseStale_host between
  -- What sets the reader apart from a new one: the handle that is freed first, and the buffer.
  have released : again = runProgram (.openSession :: operations)
      (.atRest (.closed reader.setup (reader.releaseStale between).2.1))
      (reader.releaseStale between).2.2 := by
    unfold again
    rw [runProgram, runProgram, Position.perform, Position.perform, Reader.perform_openSession]
  have twin : Position.Twin ⟨fresh.allocated, fresh.calls⟩
      ⟨between.allocated, between.calls ++ reader.staleCalls⟩ (.atRest (.new path options))
      (.atRest (.closed reader.setup (reader.releaseStale between).2.1)) := by
    rw [setup]
    exact .closed _ _ _
  have parallel : Parallel ⟨fresh.allocated, fresh.calls⟩
      ⟨between.allocated, between.calls ++ reader.staleCalls⟩
      ((Operation.openSession :: operations).countP Operation.opens) fresh
      (reader.releaseStale between).2.2 := by
    constructor
    · rw [sameTree, tree]
    · rw [List.countP_cons_of_pos rfl, sameDecoders, decoders]
    · exact ⟨0, rfl, sameNumber⟩
    · refine ⟨[], (List.append_nil _).symm, ?_⟩
      rw [calls]
      exact (List.append_nil _).symm
  obtain ⟨answers, after⟩ := twin.runProgram parallel
  rw [← released] at answers after
  refine ⟨answers, after.calls, ?_, ?_⟩
  · intro session opened opens
    obtain ⟨_, _, _, rfl⟩ := Reader.begins opens
    exact ⟨rfl, rfl⟩
  · intro session _
    exact ⟨fun _ read => Session.readChunk_filled read,
      fun buffer later => session.answers_of_buffer buffer later again.2.2⟩

/-- A reader whose first session is abandoned in the middle of a member frees its handle and goes on
with the second decoder, as a new reader would. -/
theorem abandoned_reader_opened_again :
    let archive : Path := [0x78]
    let header : Header := ⟨some [0x61], none, 4, true, 0o100644⟩
    let script (bytes : Bytes) : Script :=
      { headers := [{ header := some header, data := [{ serving := .content bytes }] }] }
    let tree : FileTree := { entries := [(archive, .file [0])] }
    let used := runProgram [.openSession, .advance, .read, .abandon] (.atRest (.new archive))
      { decoders := [some (script [1, 2, 3, 4]), some (script [9])], tree := tree }
    let operations : List Operation := [.entriesSeen, .advance, .read, .drop]
    let again := runProgram (.openSession :: operations) used.2.1 used.2.2
    let fresh : Host := { decoders := [some (script [9])], tree := tree }
    let new := runProgram (.openSession :: operations) (.atRest (.new archive)) fresh
    again.1 = [.opened, .entriesSeen 0, .member header, .chunk [9], .dropped] ∧
      again.2.2.calls = used.2.2.calls ++ (0, .free) :: new.2.2.calls.map fun call =>
        (1 + call.1, call.2) := by
  intro archive header script tree used operations again fresh new
  let left : Handle :=
    { Handle.ofScript 0 (script [1, 2, 3, 4]) with
      headers := []
      lent := some header
      serial := 1 }
  let session : Session :=
    { setup := ⟨archive, ReaderOptions.normalized {}⟩
      buffer := [1, 2, 3, 4]
      handle := left
      current := some ⟨1, header⟩
      cursor := .onMember
      entriesSeen := 1 }
  have position : used.2 = (.atRest (.abandoned session), used.2.2) := Prod.ext (by cbv) rfl
  have answered : new.1 = [.opened, .entriesSeen 0, .member header, .chunk [9], .dropped] := by cbv
  have number : used.2.2.allocated = 1 := by cbv
  have sameTree : fresh.tree = used.2.2.tree := by cbv
  have decoders : fresh.decoders.take (operations.countP Operation.opens + 1) =
      used.2.2.decoders.take (operations.countP Operation.opens + 1) := by cbv
  obtain ⟨answers, ⟨made, calls, callsToo⟩, _⟩ :=
    reused_reader_behaves_as_new archive {} position sameTree decoders
  have begins : used.2.1 = .atRest (.abandoned session) := congrArg Prod.fst position
  simp only [again, begins]
  refine ⟨answers.trans answered, callsToo.trans ?_⟩
  have fromZero : new.2.2.calls = made := by
    rw [calls]
    simp [Origin.with, fresh, Host.calls]
  rw [fromZero, number]
  simp [Origin.with, Reader.staleCalls, session, left, Handle.ofScript]

end ArchiveTraversal
