import ArchiveTraversal.Program
import ArchiveTraversal.Proofs.Reader
import ArchiveTraversal.Proofs.Session

/-!
Who has the decoder. At rest all handles given out are done with; between allocation and release
one handle is in use and those before it are done with. Every operation of a reader leads from one
of these to another, and what a run is made of leads from custody back to it.
-/

namespace ArchiveTraversal

open Decoder

structure Host.Quiet (before after : Host) : Prop where
  calls : after.calls = before.calls
  allocated : after.allocated = before.allocated
  decoders : after.decoders = before.decoders

namespace Host

theorem calls_call (host : Host) (number : Nat) (call : Call) :
    (host.call number call).calls = host.calls ++ [(number, call)] := by
  simp [calls, Host.call, record, Record.call?]

theorem event_quiet (host : Host) (event : Event) : host.Quiet (host.event event) := by
  constructor
  · simp [calls, Host.event, record, Record.call?]
  · rfl
  · rfl

theorem raiseIf_quiet (host : Host) (cancels : Bool) : host.Quiet (host.raiseIf cancels) := by
  unfold raiseIf
  split
  · constructor
    · simp [calls, record, Record.call?]
    · rfl
    · rfl
  · exact ⟨rfl, rfl, rfl⟩

theorem Quiet.trans {before between after : Host} (first : before.Quiet between)
    (second : between.Quiet after) : before.Quiet after :=
  ⟨second.calls.trans first.calls, second.allocated.trans first.allocated,
    second.decoders.trans first.decoders⟩

structure Idle (scripts : List (Option Script)) (host : Host) : Prop where
  settled : Settled scripts host.allocated host.calls
  decoders : host.decoders = scripts.drop host.allocated

theorem Idle.quiet {scripts : List (Option Script)} {before after : Host}
    (idle : before.Idle scripts) (quiet : before.Quiet after) : after.Idle scripts := by
  constructor
  · rw [quiet.calls, quiet.allocated]
    exact idle.settled
  · rw [quiet.decoders, quiet.allocated]
    exact idle.decoders

end Host

/-- A handle has been given out last, and so far has seen the given calls. -/
structure Decoder.InUse (scripts : List (Option Script)) (handle : Handle) (host : Host)
    (calls : List Call) : Prop where
  found : scripts[handle.number]? = some (some handle.script)
  log : ∃ earlier, Settled scripts handle.number earlier ∧
    host.calls = earlier ++ calls.map (Prod.mk handle.number)
  allocated : host.allocated = handle.number + 1
  decoders : host.decoders = scripts.drop host.allocated

namespace Decoder.InUse

variable {scripts : List (Option Script)} {handle : Handle} {host : Host} {calls : List Call}

theorem quiet {after : Host} (use : InUse scripts handle host calls) (quiet : host.Quiet after) :
    InUse scripts handle after calls := by
  obtain ⟨found, ⟨earlier, settled, log⟩, allocated, decoders⟩ := use
  refine ⟨found, ⟨earlier, settled, quiet.calls.trans log⟩, quiet.allocated.trans allocated, ?_⟩
  rw [quiet.decoders, quiet.allocated]
  exact decoders

theorem call (next : Handle) (use : InUse scripts handle host calls)
    (number : next.number = handle.number) (script : next.script = handle.script) (made : Call) :
    InUse scripts next (host.call handle.number made) (calls ++ [made]) := by
  obtain ⟨found, ⟨earlier, settled, log⟩, allocated, decoders⟩ := use
  constructor
  · rw [number, script]
    exact found
  · refine ⟨earlier, number ▸ settled, ?_⟩
    rw [Host.calls_call, log, number]
    simp
  · rw [number]
    exact allocated
  · exact decoders

theorem release (use : InUse scripts handle host calls)
    (lifecycle : Lifecycle handle.script (calls ++ [.free])) :
    (host.call handle.number .free).Idle scripts := by
  obtain ⟨found, ⟨earlier, settled, log⟩, allocated, decoders⟩ := use
  constructor
  · have whole : (host.call handle.number .free).calls =
        earlier ++ (calls ++ [Call.free]).map (Prod.mk handle.number) := by
      rw [Host.calls_call, log]
      simp
    rw [whole]
    exact allocated ▸ settled.decoder found lifecycle
  · exact decoders

end Decoder.InUse

namespace Host

variable {scripts : List (Option Script)} {host : Host}

theorem Idle.decoders_tail (idle : host.Idle scripts) :
    host.decoders.tail = scripts.drop (host.allocated + 1) := by
  rw [idle.decoders, List.tail_drop]

theorem Idle.next_decoder (idle : host.Idle scripts) {script : Script} :
    scripts[host.allocated]? = some (some script) ↔
      ∃ later, host.decoders = some script :: later := by
  rw [← List.head?_drop, ← idle.decoders]
  exact List.head?_eq_some_iff

theorem Idle.callAll (idle : host.Idle scripts) {made : List Call}
    (settled : Settled scripts (host.allocated + 1)
      (host.calls ++ made.map (Prod.mk host.allocated))) :
    (host.handedOut.callAll host.allocated made).Idle scripts := by
  obtain ⟨decoders, allocated⟩ := host.handedOut.callAll_decoders host.allocated made
  constructor
  · rw [allocated, calls_callAll]
    exact settled
  · rw [decoders, allocated]
    exact idle.decoders_tail

end Host

namespace Decoder

/-- A handle is open and has been used in the given way. What is left of its headers is what has
not been asked for. -/
structure Traversed (scripts : List (Option Script)) (handle : Handle) (host : Host)
    (used : List Call) : Prop where
  use : ∃ blockSize path, InUse scripts handle host (openingCalls blockSize path ++ used)
  opened : handle.script.openFile.code = 0
  traversal : Traversal handle.script used
  headers : handle.headers = handle.script.headers.drop (used.count .nextHeader)

theorem Handle.nextHeader_fields (handle : Handle) :
    handle.nextHeader.2.number = handle.number ∧ handle.nextHeader.2.script = handle.script ∧
      handle.nextHeader.2.headers = handle.headers.tail := by
  unfold nextHeader
  cases left : handle.headers with
  | nil => simp
  | cons item rest => simp

theorem Handle.nextHeader_lent {handle : Handle} {lent : LentHeader}
    (code : handle.nextHeader.1.code = 0) (given : handle.nextHeader.1.lent = some lent) :
    ∃ item, handle.headers.head? = some item ∧ item.reply.code = 0 ∧ item.header ≠ none := by
  unfold nextHeader at code given
  cases left : handle.headers with
  | nil => simp [left] at given
  | cons item rest =>
      simp only [left] at code given
      refine ⟨item, rfl, code, ?_⟩
      intro none
      simp [none] at given

theorem Handle.readData_fields (handle : Handle) (capacity : Nat) :
    (handle.readData capacity).2.number = handle.number ∧
      (handle.readData capacity).2.script = handle.script := by
  unfold readData
  split
  · exact ⟨rfl, rfl⟩
  · split
    · exact ⟨rfl, rfl⟩
    · dsimp only
      split <;> exact ⟨rfl, rfl⟩

theorem OnMember.concat {script : Script} {calls : List Call} {next : Call}
    (onMember : OnMember script calls) (other : next ≠ .nextHeader) :
    OnMember script (calls ++ [next]) := by
  obtain ⟨earlier, item, count, found, answered⟩ := onMember
  refine ⟨earlier, item, ?_, found, answered⟩
  rw [List.count_append, count, List.count_singleton]
  simp [other]

namespace Traversed

variable {scripts : List (Option Script)} {handle : Handle} {host : Host} {used : List Call}

theorem quiet {after : Host} (traversed : Traversed scripts handle host used)
    (quiet : host.Quiet after) : Traversed scripts handle after used := by
  obtain ⟨⟨blockSize, path, use⟩, opened, traversal, headers⟩ := traversed
  exact ⟨⟨blockSize, path, use.quiet quiet⟩, opened, traversal, headers⟩

theorem nextHeader (traversed : Traversed scripts handle host used) :
    Traversed scripts handle.nextHeader.2 (host.call handle.number .nextHeader)
      (used ++ [.nextHeader]) := by
  obtain ⟨⟨blockSize, path, use⟩, opened, traversal, headers⟩ := traversed
  obtain ⟨number, script, left⟩ := handle.nextHeader_fields
  constructor
  · refine ⟨blockSize, path, ?_⟩
    rw [← List.append_assoc]
    exact use.call _ number script .nextHeader
  · rw [script]
    exact opened
  · rw [script]
    exact traversal.concat (.inl rfl)
  · rw [left, script, headers, List.tail_drop, List.count_append]
    rfl

theorem onMember_of_lent (traversed : Traversed scripts handle host used) {lent : LentHeader}
    (code : handle.nextHeader.1.code = 0) (given : handle.nextHeader.1.lent = some lent) :
    OnMember handle.script (used ++ [.nextHeader]) := by
  obtain ⟨item, first, answered⟩ := Handle.nextHeader_lent code given
  refine ⟨used.count .nextHeader, item, ?_, ?_, answered⟩
  · rw [List.count_append]
    rfl
  · rw [traversed.headers, List.head?_drop] at first
    exact first

theorem data (next : Handle) {call : Call} (traversed : Traversed scripts handle host used)
    (onMember : OnMember handle.script used)
    (allowed : (∃ capacity, call = .readData capacity) ∨ call = .skipData)
    (number : next.number = handle.number) (script : next.script = handle.script)
    (left : next.headers = handle.headers) :
    Traversed scripts next (host.call handle.number call) (used ++ [call]) ∧
      OnMember next.script (used ++ [call]) := by
  obtain ⟨⟨blockSize, path, use⟩, opened, traversal, headers⟩ := traversed
  have other : call ≠ .nextHeader := by
    rintro rfl
    simp at allowed
  rw [script]
  refine ⟨⟨⟨blockSize, path, ?_⟩, script ▸ opened, ?_, ?_⟩, onMember.concat other⟩
  · rw [← List.append_assoc]
    exact use.call _ number script call
  · rw [script]
    exact traversal.concat (.inr ⟨allowed, onMember⟩)
  · rw [left, script, headers, List.count_append, List.count_singleton]
    simp [other]

theorem release (traversed : Traversed scripts handle host used) :
    (host.call handle.number .free).Idle scripts := by
  obtain ⟨⟨blockSize, path, use⟩, opened, traversal, _⟩ := traversed
  exact use.release (.traversed blockSize path used opened traversal)

end Traversed

end Decoder

/-- A session has an open decoder, and is on a member only if the decoder is. -/
def Session.Custody (scripts : List (Option Script)) (session : Session) (host : Host) : Prop :=
  ∃ used, Traversed scripts session.handle host used ∧
    (session.cursor = .onMember → OnMember session.handle.script used)

namespace Session

variable {scripts : List (Option Script)} {session : Session} {host : Host}

theorem Custody.quiet {after : Host} (custody : session.Custody scripts host)
    (quiet : host.Quiet after) : session.Custody scripts after := by
  obtain ⟨used, traversed, onMember⟩ := custody
  exact ⟨used, traversed.quiet quiet, onMember⟩

theorem Custody.advance (custody : session.Custody scripts host) :
    (session.advance host).session.Custody scripts (session.advance host).host := by
  obtain ⟨used, traversed, onMember⟩ := custody
  have asked := traversed.nextHeader.quiet (Host.raiseIf_quiet _ session.handle.nextHeader.1.cancels)
  have advances := session.advance_advances host
  generalize session.advance host = outcome at *
  cases advances with
  -- Past the end and after a failure no call reaches the decoder.
  | exhausted => exact ⟨used, traversed, onMember⟩
  | failed => exact ⟨used, traversed, onMember⟩
  | member _ code given =>
      refine ⟨_, asked.quiet (Host.event_quiet ..), fun _ => ?_⟩
      rw [session.handle.nextHeader_fields.2.1]
      exact traversed.onMember_of_lent code given
  | ended => exact ⟨_, asked.quiet (Host.event_quiet ..), fun on => nomatch on⟩
  | broken => exact ⟨_, asked.quiet (Host.event_quiet ..), fun on => nomatch on⟩

theorem Custody.readChunk (custody : session.Custody scripts host) :
    (session.readChunk host).session.Custody scripts (session.readChunk host).host := by
  obtain ⟨used, traversed, onMember⟩ := custody
  have fetched : session.OnData → ∃ more, ∀ cursor,
      Traversed scripts (session.filled cursor).handle (session.fetched host) more ∧
        OnMember (session.filled cursor).handle.script more := by
    intro onData
    obtain ⟨number, script⟩ := session.handle.readData_fields session.setup.options.chunkSize
    obtain ⟨asked, stays⟩ := traversed.data _ (onMember onData.cursor) (.inl ⟨_, rfl⟩) number script
      (session.handle.readData_headers _)
    exact ⟨_, fun _ => ⟨asked.quiet (Host.raiseIf_quiet ..), stays⟩⟩
  have reads := session.readChunk_reads host
  generalize session.readChunk host = outcome at *
  cases reads with
  | start => exact ⟨used, traversed, onMember⟩
  | exhausted => exact ⟨used, traversed, onMember⟩
  | failed => exact ⟨used, traversed, onMember⟩
  | directory => exact ⟨used, traversed, onMember⟩
  | chunk onData =>
      obtain ⟨more, after⟩ := fetched onData
      exact ⟨more, (after _).1.quiet (Host.event_quiet ..), fun _ => (after _).2⟩
  | broken onData =>
      obtain ⟨more, after⟩ := fetched onData
      exact ⟨more, (after _).1.quiet (Host.event_quiet ..), fun _ => (after _).2⟩

theorem Custody.skipEntry (custody : session.Custody scripts host) :
    (session.skipEntry host).session.Custody scripts (session.skipEntry host).host := by
  obtain ⟨used, traversed, onMember⟩ := custody
  have skipped : session.cursor = .onMember → _ := fun here =>
    traversed.data session.handle.skipData.2 (onMember here) (.inr rfl) rfl rfl rfl
  have skips := session.skipEntry_skips host
  generalize session.skipEntry host = outcome at *
  cases skips with
  | idle => exact ⟨used, traversed, onMember⟩
  | failed => exact ⟨used, traversed, onMember⟩
  | skipped here => exact ⟨_, (skipped here).1, fun _ => (skipped here).2⟩
  | broken here => exact ⟨_, (skipped here).1, fun _ => (skipped here).2⟩

theorem Custody.forEachChunk {Gathered Cause : Type} (visitor : Visitor Gathered Cause)
    (gathered : Gathered) (custody : session.Custody scripts host) :
    (session.forEachChunk visitor gathered host).session.Custody scripts
      (session.forEachChunk visitor gathered host).host := by
  fun_induction Session.forEachChunk visitor gathered session host with
  | case1 => exact custody
  | case2 => exact custody.readChunk
  | case3 => exact custody.readChunk
  | case4 => exact custody.readChunk
  | case5 _ _ _ _ _ _ _ _ _ _ ih => exact ih custody.readChunk

theorem Custody.close (custody : session.Custody scripts host) :
    (session.close host).2.2.Idle scripts := by
  obtain ⟨used, traversed, _⟩ := custody
  exact traversed.release.quiet (Host.event_quiet ..)

theorem readChunk_number (session : Session) (host : Host) :
    (session.readChunk host).session.handle.number = session.handle.number := by
  have kept := (session.handle.readData_fields session.setup.options.chunkSize).1
  have reads := session.readChunk_reads host
  generalize session.readChunk host = outcome at *
  cases reads with
  | chunk => exact kept
  | broken => exact kept
  | _ => rfl

theorem forEachChunk_number {Gathered Cause : Type} (visitor : Visitor Gathered Cause)
    (gathered : Gathered) (session : Session) (host : Host) :
    (session.forEachChunk visitor gathered host).session.handle.number = session.handle.number := by
  fun_induction forEachChunk visitor gathered session host with
  | case1 => rfl
  | case2 => exact readChunk_number ..
  | case3 => exact readChunk_number ..
  | case4 => exact readChunk_number ..
  | case5 _ _ _ _ _ _ _ _ _ _ ih => exact ih.trans (readChunk_number ..)

theorem advance_number (session : Session) (host : Host) :
    (session.advance host).session.handle.number = session.handle.number := by
  have kept := session.handle.nextHeader_fields.1
  have advances := session.advance_advances host
  generalize session.advance host = outcome at *
  cases advances with
  | exhausted => rfl
  | failed => rfl
  | member => exact kept
  | ended => exact kept
  | broken => exact kept

end Session

namespace Reader

variable {scripts : List (Option Script)} {host : Host}

theorem Refuses.lifecycle {setup : Setup} {script : Script} {calls : List Call} {reply : Reply}
    (refuses : Refuses setup script calls reply) :
    Lifecycle script (.allocate :: calls ++ [.free]) := by
  cases refuses with
  | filters refused => exact .filtersRefused refused
  | formats _ refused => exact .formatsRefused refused
  | file _ _ refused => exact .notOpened setup.options.blockSize setup.path refused

theorem acquire_cases (setup : Setup) (idle : host.Idle scripts) :
    (∃ reason after, acquire setup host = (.error reason, after) ∧ after.Idle scripts) ∨
      ∃ next after, acquire setup host = (.ok next, after) ∧ Traversed scripts next after [] := by
  have acquires := acquire_acquires setup host
  generalize acquire setup host = outcome at *
  cases acquires with
  | obstructed => exact .inl ⟨_, host, rfl, idle⟩
  | unavailable _ nothing =>
      refine .inl ⟨_, _, rfl, idle.callAll (idle.settled.absent fun script found => ?_)⟩
      obtain ⟨later, decoders⟩ := idle.next_decoder.mp found
      exact nothing script later decoders
  | refused _ decoders refuses =>
      have found := idle.next_decoder.mpr ⟨_, decoders⟩
      exact .inl ⟨_, _, rfl, idle.callAll (idle.settled.decoder found refuses.lifecycle)⟩
  | @ready script _ _ decoders _ _ opened =>
      right
      obtain ⟨left, allocated⟩ := host.handedOut.callAll_decoders host.allocated
        (openingCalls setup.options.blockSize setup.path)
      have use : InUse scripts ((Handle.ofScript host.allocated script).answer script.openFile)
          (host.handedOut.callAll host.allocated
            (openingCalls setup.options.blockSize setup.path))
          (openingCalls setup.options.blockSize setup.path ++ []) := by
        constructor
        · exact idle.next_decoder.mpr ⟨_, decoders⟩
        · refine ⟨host.calls, idle.settled, ?_⟩
          rw [Host.calls_callAll, List.append_nil]
          rfl
        · exact allocated
        · rw [left, allocated]
          exact idle.decoders_tail
      exact ⟨_, _, rfl, ⟨⟨_, _, use⟩, opened, .nil _, rfl⟩⟩

def Custody (scripts : List (Option Script)) (reader : Reader) (host : Host) : Prop :=
  match reader with
  | .closed _ _ => host.Idle scripts
  | .abandoned session => session.Custody scripts host

variable {reader : Reader}

theorem Custody.releaseStale (custody : reader.Custody scripts host) :
    (reader.releaseStale host).2.2.Idle scripts := by
  cases reader with
  | closed setup buffer => exact custody
  | abandoned session => exact (Session.Custody.quiet custody (host.event_quiet _)).close

theorem Custody.close (custody : reader.Custody scripts host) :
    (reader.close host).2.1.Custody scripts (reader.close host).2.2 ∧
      (reader.close host).2.2.Idle scripts := by
  cases reader with
  | closed setup buffer => exact ⟨custody, custody⟩
  | abandoned session => exact ⟨Session.Custody.close custody, Session.Custody.close custody⟩

theorem Custody.openSession (custody : reader.Custody scripts host) :
    (∃ error refused after, reader.openSession host = (.refused error refused, after) ∧
        after.Idle scripts ∧ refused.Custody scripts after) ∨
      ∃ session after, reader.openSession host = (.opened session, after) ∧
        session.Custody scripts after := by
  unfold Reader.openSession
  dsimp only
  rcases acquire_cases (reader.releaseStale host).1 custody.releaseStale with
    ⟨reason, after, same, idle⟩ | ⟨handle, after, same, traversed⟩
  · rw [same]
    exact .inl ⟨_, _, _, rfl, idle, idle⟩
  · rw [same]
    refine .inr ⟨_, _, rfl, [], traversed.quiet (Host.event_quiet ..), ?_⟩
    intro onMember
    cases onMember

end Reader

end ArchiveTraversal
