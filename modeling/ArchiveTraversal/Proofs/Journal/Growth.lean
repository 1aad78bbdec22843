import ArchiveTraversal.Proofs.Decoder.Data
import ArchiveTraversal.Proofs.Host

/-!
What each operation writes into the journal, record by record: the call on the decoder, the flag if
it was raised by the answer, and one event that tells how the call turned out.
-/

namespace ArchiveTraversal

open Decoder

def raised (cancels : Bool) : List Record := if cancels then [.cancelRaised] else []

namespace Record

def chunk? : Record → Option Nat
  | .event (.chunkRead (more + 1)) => some (more + 1)
  | _ => none

def isEnd : Record → Bool
  | .event (.chunkRead 0) => true
  | _ => false

def isData : Record → Bool
  | .call _ (.readData _) | .cancelRaised | .event (.chunkRead _) | .event (.dataFailed ..) => true
  | _ => false

/-- The record is of what goes before any traversal: a call that sets a decoder up or frees it, or
the news that the archive is open. -/
def isSetup : Record → Bool
  | .call _ .nextHeader | .call _ (.readData _) | .call _ .skipData => false
  | .call .. | .event (.opened ..) => true
  | _ => false

theorem eq_of_raised {cancels : Bool} {entry : Record} (member : entry ∈ raised cancels) :
    entry = .cancelRaised := by
  cases cancels with
  | false => cases member
  | true => exact List.mem_singleton.mp member

theorem isData_of_raised {cancels : Bool} {entry : Record} (member : entry ∈ raised cancels) :
    entry.isData = true := by
  rw [eq_of_raised member]
  rfl

theorem setup_cases {entry : Record} (setup : entry.isSetup = true) :
    (∃ number call, entry = .call number call) ∨
      ∃ path blockSize filters, entry = .event (.opened path blockSize filters) := by
  cases entry with
  | call number call => exact .inl ⟨number, call, rfl⟩
  | event logged =>
      cases logged with
      | opened path blockSize filters => exact .inr ⟨path, blockSize, filters, rfl⟩
      | _ => cases setup
  | _ => cases setup

theorem chunks_raised (cancels : Bool) : (raised cancels).filterMap chunk? = [] := by
  cases cancels <;> rfl

theorem ends_raised (cancels : Bool) : (raised cancels).countP isEnd = 0 := by
  cases cancels <;> rfl

end Record

namespace Host

def Adds (before after : Host) (records : List Record) : Prop :=
  after.journal.toList = before.journal.toList ++ records

theorem Adds.refl (host : Host) : host.Adds host [] := by simp [Adds]

theorem Adds.trans {before between after : Host} {records more : List Record}
    (first : before.Adds between records) (second : between.Adds after more) :
    before.Adds after (records ++ more) := by
  rw [Adds, second, first, List.append_assoc]

theorem Adds.unique {before after : Host} {records others : List Record}
    (first : before.Adds after records) (second : before.Adds after others) : records = others :=
  List.append_cancel_left (first.symm.trans second)

theorem record_adds (host : Host) (entry : Record) : host.Adds (host.record entry) [entry] := by
  simp [Adds, record]

theorem event_adds (host : Host) (event : Event) :
    host.Adds (host.event event) [.event event] := host.record_adds _

theorem raiseIf_adds (host : Host) (cancels : Bool) :
    host.Adds (host.raiseIf cancels) (raised cancels) := by
  cases cancels with
  | false => exact .refl host
  | true => exact { host with cancelled := true }.record_adds .cancelRaised

theorem raiseIf_cancelled (host : Host) (cancels : Bool) :
    (host.raiseIf cancels).cancelled = (host.cancelled || cancels) := by
  cases cancels with
  | false => exact (Bool.or_false _).symm
  | true => exact (Bool.or_true _).symm

end Host

def Walk.ends {Cause : Type} : Walk Cause → Nat
  | .complete => 1
  | _ => 0

namespace Session

variable {session : Session} {host : Host}

theorem asked_adds (session : Session) (host : Host) :
    host.Adds (session.asked host)
      (.call session.handle.number .nextHeader :: raised session.handle.nextHeader.1.cancels) :=
  (host.record_adds _).trans (Host.raiseIf_adds ..)

theorem fetched_adds (session : Session) (host : Host) :
    host.Adds (session.fetched host)
      (.call session.handle.number (.readData session.setup.options.chunkSize) ::
        raised session.reply.cancels) :=
  (host.record_adds _).trans (Host.raiseIf_adds ..)

inductive TellsOfHeader : Except ArchiveError (Option Header) → Event → Prop
  | member (index : Nat) (header : Header) :
      TellsOfHeader (.ok (some header)) (.headerRead index header.filename header.size)
  | ended (path : Path) (entries : Nat) : TellsOfHeader (.ok none) (.ended path entries)
  | failed (path : Path) (status : Status) (reason : Reason) :
      TellsOfHeader (.error (.reading path .header reason)) (.headerFailed path status reason)

/-- What a request for a header leaves in the journal, and how it leaves the flag. -/
theorem Going.advance_tells (going : session.Going) (host : Host) :
    ∃ cancels event, TellsOfHeader (session.advance host).value event ∧
      host.Adds (session.advance host).host
        (.call session.handle.number .nextHeader :: raised cancels ++ [.event event]) ∧
      (session.advance host).host.cancelled = (host.cancelled || cancels) := by
  have asked := session.asked_adds host
  have flag := Host.raiseIf_cancelled (session.call host .nextHeader)
    session.handle.nextHeader.1.cancels
  have advances := session.advance_advances host
  generalize session.advance host = outcome at *
  cases advances with
  | exhausted past => exact absurd past going.not_exhausted
  | failed stopped => exact absurd stopped going.not_failed
  | member => exact ⟨_, _, .member _ _, asked.trans (Host.event_adds ..), flag⟩
  | ended => exact ⟨_, _, .ended _ _, asked.trans (Host.event_adds ..), flag⟩
  | broken => exact ⟨_, _, .failed _ _ _, asked.trans (Host.event_adds ..), flag⟩

theorem Going.advance_adds (going : session.Going) (host : Host) :
    ∃ cancels event, TellsOfHeader (session.advance host).value event ∧
      host.Adds (session.advance host).host
        (.call session.handle.number .nextHeader :: raised cancels ++ [.event event]) := by
  obtain ⟨cancels, event, tells, adds, _⟩ := going.advance_tells host
  exact ⟨cancels, event, tells, adds⟩

inductive TellsOfData : Except ArchiveError Bytes → Event → Prop
  | chunk (bytes : Bytes) : TellsOfData (.ok bytes) (.chunkRead bytes.length)
  | failed (path : Path) (reason : Reason) :
      TellsOfData (.error (.reading path .data reason)) (.dataFailed path reason)

theorem OnData.readChunk_tells (onData : session.OnData) (host : Host) :
    ∃ cancels event, TellsOfData (session.readChunk host).value event ∧
      host.Adds (session.readChunk host).host
        (.call session.handle.number (.readData session.setup.options.chunkSize) ::
          raised cancels ++ [.event event]) ∧
      (session.readChunk host).host.cancelled = (host.cancelled || cancels) := by
  have fetched := session.fetched_adds host
  have flag := Host.raiseIf_cancelled
    (session.call host (.readData session.setup.options.chunkSize)) session.reply.cancels
  have reads := session.readChunk_reads host
  generalize session.readChunk host = outcome at *
  cases reads with
  | start fresh => cases onData.cursor.symm.trans fresh
  | exhausted past => cases onData.cursor.symm.trans past
  | failed stopped => cases onData.cursor.symm.trans stopped
  | directory _ is => cases onData.regular.symm.trans is
  | chunk => exact ⟨_, _, .chunk _, fetched.trans (Host.event_adds ..), flag⟩
  | broken => exact ⟨_, _, .failed _ _, fetched.trans (Host.event_adds ..), flag⟩

theorem OnData.readChunk_adds (onData : session.OnData) (host : Host) :
    ∃ cancels event, TellsOfData (session.readChunk host).value event ∧
      host.Adds (session.readChunk host).host
        (.call session.handle.number (.readData session.setup.options.chunkSize) ::
          raised cancels ++ [.event event]) := by
  obtain ⟨cancels, event, tells, adds, _⟩ := onData.readChunk_tells host
  exact ⟨cancels, event, tells, adds⟩

theorem OnData.readChunk_data (onData : session.OnData) (host : Host) :
    ∃ records, host.Adds (session.readChunk host).host records ∧
      (∀ entry ∈ records, entry.isData = true) ∧
      (records.filterMap Record.chunk?, records.countP Record.isEnd) =
        match (session.readChunk host).value with
        | .ok [] => ([], 1)
        | .ok (byte :: more) => ([(byte :: more).length], 0)
        | .error _ => ([], 0) := by
  obtain ⟨cancels, event, tells, adds⟩ := onData.readChunk_adds host
  refine ⟨_, adds, ?_⟩
  generalize (session.readChunk host).value = value at tells
  constructor
  · intro entry member
    rcases List.mem_cons.mp member with called | rest
    · rw [called]
      rfl
    · rcases List.mem_append.mp rest with flag | told
      · exact Record.isData_of_raised flag
      · rw [List.mem_singleton.mp told]
        cases tells <;> rfl
  · rw [List.cons_append, List.filterMap_cons_none rfl, List.filterMap_append,
      Record.chunks_raised, List.nil_append, List.countP_cons_of_neg (by simp [Record.isEnd]),
      List.countP_append, Record.ends_raised, Nat.zero_add]
    cases tells with
    | chunk bytes => cases bytes <;> rfl
    | failed => rfl

inductive TellsOfClosing : Event → Prop
  | closed (path : Path) (entries : Nat) : TellsOfClosing (.closed path entries)
  | failed (path : Path) : TellsOfClosing (.closeFailed path)

theorem close_adds (session : Session) (host : Host) :
    ∃ event, TellsOfClosing event ∧
      host.Adds (session.close host).2.2 [.call session.handle.number .free, .event event] := by
  refine ⟨_, ?_, (host.record_adds _).trans (Host.event_adds ..)⟩
  split
  · exact .closed ..
  · exact .failed _

/-- The journal goes on from the opening, whatever has been done to the tree in between. -/
theorem close_adds_over {before between : Host} {opening : List Record}
    (opens : before.Adds between opening) (session : Session) (made : FileTree) :
    ∃ event, TellsOfClosing event ∧
      before.Adds (session.close { between with tree := made }).2.2
        (opening ++ [.call session.handle.number .free, .event event]) ∧
      (session.close { between with tree := made }).2.2.tree = made := by
  obtain ⟨event, tells, closes⟩ := session.close_adds { between with tree := made }
  exact ⟨event, tells, opens.trans closes, (session.close_extends _).tree⟩

section

variable {Gathered Cause : Type} (visitor : Visitor Gathered Cause)

/-- What a visitor has been shown when its walk is over: chunks that it took, and one more if it
refused that. -/
inductive Shown (gathered : Gathered) : List Bytes → Walk Cause × Gathered → Prop
  | taken {seen : List Bytes} {walk : Walk Cause} {last : Gathered}
      (takes : visitor.Takes gathered seen last) : Shown gathered seen (walk, last)
  | refused {seen : List Bytes} {chunk : Bytes} {between last : Gathered} {cause : Cause}
      (takes : visitor.Takes gathered seen between)
      (refuses : visitor.visit between chunk = (last, some cause)) :
      Shown gathered (seen ++ [chunk]) (.stopped cause, last)

variable {visitor}

theorem Shown.cons {gathered next : Gathered} {chunk : Bytes} {seen : List Bytes}
    {result : Walk Cause × Gathered} (accepted : visitor.visit gathered chunk = (next, none))
    (shown : Shown visitor next seen result) : Shown visitor gathered (chunk :: seen) result := by
  cases shown with
  | taken takes => exact .taken (.cons accepted takes)
  | refused takes refuses => exact .refused (.cons accepted takes) refuses

theorem OnData.forEachChunk_data (visitor : Visitor Gathered Cause) (gathered : Gathered)
    (onData : session.OnData) (host : Host) :
    ∃ records seen, host.Adds (session.forEachChunk visitor gathered host).host records ∧
      (∀ entry ∈ records, entry.isData = true) ∧
      records.filterMap Record.chunk? = seen.map List.length ∧
      Shown visitor gathered seen (session.forEachChunk visitor gathered host).value ∧
      records.countP Record.isEnd = (session.forEachChunk visitor gathered host).value.1.ends := by
  fun_induction Session.forEachChunk visitor gathered session host with
  | case1 => exact ⟨[], [], .refl _, by simp, rfl, .taken (.nil _), rfl⟩
  | case2 _ session host _ _ _ failed =>
      obtain ⟨records, adds, data, tells⟩ := onData.readChunk_data host
      rw [show (session.readChunk host).value = _ from failed, Prod.mk.injEq] at tells
      exact ⟨records, [], adds, data, tells.1, .taken (.nil _), tells.2⟩
  | case3 _ session host _ _ empty =>
      obtain ⟨records, adds, data, tells⟩ := onData.readChunk_data host
      rw [show (session.readChunk host).value = _ from empty, Prod.mk.injEq] at tells
      exact ⟨records, [], adds, data, tells.1, .taken (.nil _), tells.2⟩
  | case4 _ session host _ _ byte more filled _ _ refuses =>
      obtain ⟨records, adds, data, tells⟩ := onData.readChunk_data host
      rw [show (session.readChunk host).value = _ from filled, Prod.mk.injEq] at tells
      have shown : Shown visitor _ ([] ++ [byte :: more]) (.stopped _, _) :=
        .refused (.nil _) refuses
      exact ⟨records, [byte :: more], adds, data, tells.1, shown, tells.2⟩
  | case5 _ session host _ _ byte more filled _ accepted ih =>
      obtain ⟨records, adds, data, tells⟩ := onData.readChunk_data host
      rw [show (session.readChunk host).value = _ from filled, Prod.mk.injEq] at tells
      obtain ⟨others, seen, further, dataToo, chunks, shown, ends⟩ :=
        ih (onData.readChunk_ok filled).2.2.2.2
      refine ⟨records ++ others, (byte :: more) :: seen, adds.trans further, ?_, ?_,
        shown.cons accepted, ?_⟩
      · intro entry member
        rcases List.mem_append.mp member with early | late
        · exact data entry early
        · exact dataToo entry late
      · rw [List.filterMap_append, tells.1, chunks]
        rfl
      · rw [List.countP_append, tells.2, ends, Nat.zero_add]

end

end Session

namespace Reader

theorem acquire_adds (setup : Setup) (host : Host) :
    ∃ records, host.Adds (acquire setup host).2 records ∧
      ∀ entry ∈ records, entry.isSetup = true := by
  have handed : ∀ calls : List Call,
      (∀ call ∈ calls, (Record.call host.allocated call).isSetup = true) →
      ∃ records, host.Adds (host.handedOut.callAll host.allocated calls) records ∧
        ∀ entry ∈ records, entry.isSetup = true := by
    intro calls setups
    refine ⟨_, host.handedOut.callAll_journal host.allocated calls, ?_⟩
    intro entry member
    obtain ⟨call, called, rfl⟩ := List.mem_map.mp member
    exact setups call called
  have acquires := acquire_acquires setup host
  generalize acquire setup host = outcome at *
  cases acquires with
  | obstructed => exact ⟨[], .refl host, by simp⟩
  | unavailable => exact handed _ (by simp [Record.isSetup])
  | refused _ _ refuses => exact handed _ (by cases refuses <;> simp [Record.isSetup])
  | ready => exact handed _ (by simp [openingCalls, Record.isSetup])

theorem openSession_adds (path : Path) (options : ReaderOptions) (host : Host) :
    ∃ records, host.Adds ((new path options).openSession host).2 records ∧
      ∀ entry ∈ records, entry.isSetup = true := by
  obtain ⟨records, adds, setups⟩ := acquire_adds ⟨path, options.normalized⟩ host
  have released : (new path options).releaseStale host = (⟨path, options.normalized⟩, [], host) :=
    rfl
  unfold openSession
  simp only [released]
  split
  · rename_i refused
    rw [refused] at adds
    exact ⟨records, adds, setups⟩
  · rename_i opened
    rw [opened] at adds
    refine ⟨_, adds.trans (Host.event_adds ..), ?_⟩
    intro entry member
    rcases List.mem_append.mp member with early | late
    · exact setups entry early
    · rw [List.mem_singleton.mp late]
      rfl

end Reader

end ArchiveTraversal
