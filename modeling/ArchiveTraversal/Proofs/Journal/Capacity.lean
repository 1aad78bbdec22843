import ArchiveTraversal.Proofs.Journal.Growth
import ArchiveTraversal.Proofs.Unpack.Accounts
import ArchiveTraversal.Proofs.Unpack.Preparation

/-!
How much data is asked for at a time. A reader asks for as much as its options say, each time that
it asks, whatever is done with it; and no chunk that it gives is larger.
-/

namespace ArchiveTraversal

open Decoder

def Record.capacity? : Record → Option Nat
  | .call _ (.readData capacity) => some capacity
  | _ => none

def Answer.chunks : Answer → List Bytes
  | .chunk bytes => [bytes]
  | .drained chunks _ => chunks
  | _ => []

namespace Host

/-- Whenever data has been asked for from one host to the other, it was for just so much. -/
def Asks (capacity : Nat) (before after : Host) : Prop :=
  ∃ records, before.Adds after records ∧
    ∀ entry ∈ records, ∀ asked, entry.capacity? = some asked → asked = capacity

variable {capacity : Nat} {before between after : Host} {records : List Record}

theorem Asks.refl (capacity : Nat) (host : Host) : host.Asks capacity host :=
  ⟨[], .refl host, by simp⟩

theorem Asks.trans (first : Asks capacity before between) (second : Asks capacity between after) :
    Asks capacity before after := by
  obtain ⟨records, adds, just⟩ := first
  obtain ⟨more, further, justToo⟩ := second
  refine ⟨records ++ more, adds.trans further, ?_⟩
  intro entry member
  rcases List.mem_append.mp member with early | late
  · exact just entry early
  · exact justToo entry late

theorem Adds.asks (adds : before.Adds after records)
    (none : ∀ entry ∈ records, entry.capacity? = none) : Asks capacity before after := by
  refine ⟨records, adds, fun entry member asked some => ?_⟩
  rw [none entry member] at some
  cases some

theorem event_asks (host : Host) (event : Event) : host.Asks capacity (host.event event) :=
  (host.event_adds event).asks (by simp [Record.capacity?])

theorem raiseIf_asks (host : Host) (cancels : Bool) : host.Asks capacity (host.raiseIf cancels) := by
  refine (host.raiseIf_adds cancels).asks fun entry member => ?_
  rw [Record.eq_of_raised member]
  rfl

theorem call_asks (host : Host) (number : Nat) {call : Call}
    (other : (Record.call number call).capacity? = none) :
    host.Asks capacity (host.call number call) :=
  (host.record_adds _).asks (by simpa using other)

end Host

namespace Session

variable {session : Session} {host : Host}

theorem advance_asks (session : Session) (host : Host) (capacity : Nat) :
    host.Asks capacity (session.advance host).host := by
  have asked : host.Asks capacity (session.asked host) :=
    (host.call_asks session.handle.number rfl).trans (Host.raiseIf_asks ..)
  have advances := session.advance_advances host
  generalize session.advance host = outcome at *
  cases advances with
  | exhausted => exact .refl capacity host
  | failed => exact .refl capacity host
  | member => exact asked.trans (Host.event_asks ..)
  | ended => exact asked.trans (Host.event_asks ..)
  | broken => exact asked.trans (Host.event_asks ..)

theorem fetched_asks (session : Session) (host : Host) :
    host.Asks session.setup.options.chunkSize (session.fetched host) := by
  refine ⟨_, session.fetched_adds host, ?_⟩
  rintro entry (_ | ⟨_, flag⟩) asked some
  · exact (Option.some.inj some).symm
  · rw [Record.eq_of_raised flag] at some
    cases some

theorem readChunk_asks (session : Session) (host : Host) :
    host.Asks session.setup.options.chunkSize (session.readChunk host).host ∧
      ∀ chunk, (session.readChunk host).value = .ok chunk →
        chunk.length ≤ session.setup.options.chunkSize := by
  have fetched := session.fetched_asks host
  have length := session.handle.length_readData session.setup.options.chunkSize
  have reads := session.readChunk_reads host
  generalize session.readChunk host = outcome at *
  cases reads with
  | start => exact ⟨.refl _ host, fun _ read => by cases read⟩
  | exhausted =>
      refine ⟨.refl _ host, fun chunk read => ?_⟩
      cases read
      exact Nat.zero_le _
  | failed => exact ⟨.refl _ host, fun _ read => by cases read⟩
  | directory =>
      refine ⟨.refl _ host, fun chunk read => ?_⟩
      cases read
      exact Nat.zero_le _
  | chunk =>
      refine ⟨fetched.trans (Host.event_asks ..), fun chunk read => ?_⟩
      cases read
      exact length ▸ Nat.min_le_right ..
  | broken => exact ⟨fetched.trans (Host.event_asks ..), fun _ read => by cases read⟩

theorem forEachChunk_asks {Gathered Cause : Type} (visitor : Visitor Gathered Cause)
    (holds : Gathered → Prop) (gathered : Gathered) (session : Session) (host : Host)
    (begins : holds gathered)
    (kept : ∀ gathered chunk, holds gathered → chunk.length ≤ session.setup.options.chunkSize →
      holds (visitor.visit gathered chunk).1) :
    host.Asks session.setup.options.chunkSize (session.forEachChunk visitor gathered host).host ∧
      holds (session.forEachChunk visitor gathered host).value.2 := by
  fun_induction Session.forEachChunk visitor gathered session host with
  | case1 => exact ⟨.refl .., begins⟩
  | case2 => exact ⟨(readChunk_asks ..).1, begins⟩
  | case3 => exact ⟨(readChunk_asks ..).1, begins⟩
  | case4 gathered session host _ _ byte more filled last cause refuses =>
      obtain ⟨asks, small⟩ := session.readChunk_asks host
      have seen := kept gathered _ begins (small _ filled)
      rw [refuses] at seen
      exact ⟨asks, seen⟩
  | case5 gathered session host _ _ byte more filled next accepted ih =>
      obtain ⟨asks, small⟩ := session.readChunk_asks host
      have seen := kept gathered _ begins (small _ filled)
      rw [accepted] at seen
      rw [show (session.readChunk host).session.setup = _ from session.readChunk_setup host] at ih
      obtain ⟨further, last⟩ := ih seen kept
      exact ⟨asks.trans further, last⟩

theorem skipEntry_asks (session : Session) (host : Host) (capacity : Nat) :
    host.Asks capacity (session.skipEntry host).host := by
  have skips := session.skipEntry_skips host
  generalize session.skipEntry host = outcome at *
  cases skips with
  | idle => exact .refl capacity host
  | failed => exact .refl capacity host
  | skipped => exact host.call_asks session.handle.number rfl
  | broken => exact host.call_asks session.handle.number rfl

theorem skipEntry_setup (session : Session) (host : Host) :
    (session.skipEntry host).session.setup = session.setup := by
  have skips := session.skipEntry_skips host
  generalize session.skipEntry host = outcome at *
  cases skips <;> rfl

theorem close_asks (session : Session) (host : Host) (capacity : Nat) :
    host.Asks capacity (session.close host).2.2 :=
  (host.call_asks session.handle.number rfl).trans (Host.event_asks ..)

end Session

theorem Record.capacity?_of_setup {entry : Record} (setup : entry.isSetup = true) :
    entry.capacity? = none := by
  rcases setup_cases setup with ⟨number, call, rfl⟩ | ⟨_, _, _, rfl⟩
  · cases call with
    | readData => cases setup
    | _ => rfl
  · rfl

namespace Reader

variable (reader : Reader) (host : Host) (capacity : Nat)

theorem close_asks : host.Asks capacity (reader.close host).2.2 := by
  cases reader with
  | closed => exact .refl capacity host
  | abandoned session => exact session.close_asks host capacity

theorem releaseStale_asks : host.Asks capacity (reader.releaseStale host).2.2 := by
  cases reader with
  | closed => exact .refl capacity host
  | abandoned session => exact (host.event_asks _).trans (session.close_asks _ capacity)

theorem acquire_asks (setup : Setup) : host.Asks capacity (acquire setup host).2 := by
  obtain ⟨records, adds, setups⟩ := acquire_adds setup host
  exact adds.asks fun entry member => Record.capacity?_of_setup (setups entry member)

def Keeps (setup : Setup) : Opening → Prop
  | .opened session => session.setup = setup
  | .refused _ reader => reader.setup = setup

theorem openSession_asks :
    host.Asks capacity (reader.openSession host).2 ∧
      Keeps reader.setup (reader.openSession host).1 := by
  have released := reader.releaseStale_asks host capacity
  have acquired := acquire_asks (reader.releaseStale host).2.2 capacity
    (reader.releaseStale host).1
  have same : (reader.releaseStale host).1 = reader.setup := by cases reader <;> rfl
  unfold openSession
  rw [← same]
  dsimp only
  split
  · rename_i refused
    rw [refused] at acquired
    exact ⟨released.trans acquired, rfl⟩
  · rename_i opened
    rw [opened] at acquired
    exact ⟨(released.trans acquired).trans (Host.event_asks ..), rfl⟩

end Reader

def Position.setup : Position → Setup
  | .atRest reader => reader.setup
  | .inSession session => session.setup

/-- An operation asks for data by the setup only, which it keeps, and answers with no larger chunk. -/
structure Performed.Fits (setup : Setup) (before : Host) (performed : Performed) : Prop where
  asks : before.Asks setup.options.chunkSize performed.host
  kept : performed.position.setup = setup
  small : ∀ chunk ∈ performed.answer.chunks, chunk.length ≤ setup.options.chunkSize

theorem Reader.perform_fits (reader : Reader) (host : Host) (operation : Operation) :
    (reader.perform host operation).Fits reader.setup host := by
  have idle : ∀ answer : Answer, answer.chunks = [] →
      (Performed.mk answer (.atRest reader) host).Fits reader.setup host :=
    fun answer none => ⟨.refl _ host, rfl, by simp [none]⟩
  cases operation with
  | openSession =>
      obtain ⟨asks, keeps⟩ := reader.openSession_asks host reader.setup.options.chunkSize
      unfold perform
      generalize reader.openSession host = outcome at *
      obtain ⟨opened | refused, after⟩ := outcome
      · exact ⟨asks, keeps, by simp [Answer.chunks]⟩
      · exact ⟨asks, keeps, by simp [Answer.chunks]⟩
  | close =>
      refine ⟨reader.close_asks host _, ?_, by simp [perform, Answer.chunks]⟩
      cases reader <;> rfl
  | _ => exact idle _ rfl

namespace Session

theorem drain_asks (session : Session) (host : Host) :
    host.Asks session.setup.options.chunkSize (session.drain host).host ∧
      ∀ chunk ∈ (session.drain host).value.1, chunk.length ≤ session.setup.options.chunkSize := by
  obtain ⟨asks, small⟩ := forEachChunk_asks collector
    (fun gathered => ∀ chunk ∈ gathered, chunk.length ≤ session.setup.options.chunkSize) []
    session host (by simp) fun gathered chunk small fits => by
      rintro other (_ | ⟨_, member⟩)
      · exact fits
      · exact small other member
  exact ⟨asks, fun chunk member => small chunk (List.mem_reverse.mp member)⟩

theorem perform_fits (session : Session) (host : Host) (operation : Operation) :
    (session.perform host operation).Fits session.setup host := by
  have idle : ∀ answer : Answer, answer.chunks = [] →
      (Performed.mk answer (.inSession session) host).Fits session.setup host :=
    fun answer none => ⟨.refl _ host, rfl, by simp [none]⟩
  cases operation with
  | advance =>
      refine ⟨session.advance_asks host _, session.advance_setup host, ?_⟩
      simp only [perform, stay]
      split <;> simp [Answer.chunks]
  | read =>
      obtain ⟨asks, small⟩ := session.readChunk_asks host
      refine ⟨asks, session.readChunk_setup host, ?_⟩
      simp only [perform, stay]
      split
      · rename_i bytes read
        simpa [Answer.chunks] using small bytes read
      · simp [Answer.chunks]
  | drain =>
      obtain ⟨asks, small⟩ := session.drain_asks host
      exact ⟨asks, session.forEachChunk_setup .., small⟩
  | copy sink state =>
      obtain ⟨asks, _⟩ := forEachChunk_asks (copier sink.recording) (fun _ => True) (0, state, [])
        session host trivial fun _ _ _ _ => trivial
      exact ⟨asks, session.forEachChunk_setup .., by simp [perform, stay, Answer.chunks]⟩
  | skip =>
      refine ⟨session.skipEntry_asks host _, session.skipEntry_setup host, ?_⟩
      simp only [perform, stay]
      split <;> simp [Answer.chunks]
  | close => exact ⟨session.close_asks host _, rfl, by simp [perform, Answer.chunks]⟩
  | drop => exact ⟨session.close_asks host _, rfl, by simp [perform, Answer.chunks]⟩
  | abandon => exact ⟨.refl _ host, rfl, by simp [perform, Answer.chunks]⟩
  | _ => exact idle _ rfl

theorem collectMembers_asks (session : Session) (host : Host) (capacity : Nat) :
    host.Asks capacity (session.collectMembers host).host := by
  fun_induction collectMembers session host with
  | case1 => exact advance_asks ..
  | case2 => exact advance_asks ..
  | case3 _ _ _ _ _ _ ih => exact (advance_asks ..).trans ih

end Session

theorem Position.perform_fits (position : Position) (host : Host) (operation : Operation) :
    (position.perform host operation).Fits position.setup host := by
  cases position with
  | atRest reader => exact reader.perform_fits host operation
  | inSession session => exact session.perform_fits host operation

theorem runProgram_asks (operations : List Operation) (position : Position) (host : Host) :
    let run := runProgram operations position host
    host.Asks position.setup.options.chunkSize (run.2.1.finish run.2.2) ∧
      ∀ answer ∈ run.1, ∀ chunk ∈ answer.chunks,
        chunk.length ≤ position.setup.options.chunkSize := by
  induction operations generalizing position host with
  | nil =>
      refine ⟨?_, by simp [runProgram]⟩
      cases position with
      | atRest reader => exact reader.close_asks host _
      | inSession session => exact session.close_asks host _
  | cons operation rest ih =>
      have fits := position.perform_fits host operation
      obtain ⟨asks, small⟩ := ih (position.perform host operation).position
        (position.perform host operation).host
      rw [fits.kept] at asks small
      refine ⟨fits.asks.trans asks, ?_⟩
      rintro answer (_ | ⟨_, member⟩)
      · exact fits.small
      · exact small answer member

theorem Listing.ofArchive_asks (path : Path) (options : ReaderOptions) (host : Host)
    (capacity : Nat) : host.Asks capacity (Listing.ofArchive path options host).2 := by
  obtain ⟨opens, _⟩ := (Reader.new path options).openSession_asks host capacity
  unfold Listing.ofArchive
  split
  · rename_i refused
    rw [refused] at opens
    exact opens
  · rename_i session _ opened
    rw [opened] at opens
    exact (opens.trans (session.collectMembers_asks _ capacity)).trans (Session.close_asks ..)

namespace UnpackJob

variable {job : UnpackJob}

theorem walk_asks (job : UnpackJob) (tally : Tally) (session : Session) (host : Host) :
    host.Asks session.setup.options.chunkSize (job.walk tally session host).host ∧
      ∀ chunk ∈ (job.walk tally session host).value.2.chunks,
        chunk.length ≤ session.setup.options.chunkSize := by
  refine Session.forEachChunk_asks job.writer
    (fun written => ∀ chunk ∈ written.chunks, chunk.length ≤ session.setup.options.chunkSize)
    { total := tally.bytes } session host (by simp) fun written chunk small fits => ?_
  unfold writer
  dsimp only
  split
  · exact small
  · rintro other (_ | ⟨_, member⟩)
    · exact fits
    · exact small other member

theorem report_asks (job : UnpackJob) (name : String) (tally : Tally) (host : Host)
    (capacity : Nat) : host.Asks capacity (job.report name tally host).2 := by
  refine (job.report_adds tally host name).asks ?_
  rintro entry (_ | ⟨_, flag⟩)
  · rfl
  · rw [Record.eq_of_raised flag]
    rfl

theorem treat_asks (job : UnpackJob) (visit : Visit) :
    visit.host.Asks visit.session.setup.options.chunkSize (job.treat visit).host := by
  have readied : ∀ {after : Host}, visit.host.Readies after →
      visit.host.Asks visit.session.setup.options.chunkSize after := by
    intro after readies
    obtain ⟨events, adds, _⟩ := readies.tells
    refine adds.asks fun entry member => ?_
    obtain ⟨event, _, rfl⟩ := List.mem_map.mp member
    rfl
  rcases job.treat_cases visit with ⟨value, after, ends, readies, _⟩ | ⟨location, ready, ends, readies, _⟩
  · rw [ends]
    exact readied readies
  · obtain ⟨walked, _⟩ := job.walk_asks visit.tally visit.session ready
    have filled : visit.host.Asks visit.session.setup.options.chunkSize
        (job.filled location visit.tally visit.session ready) := (readied readies).trans walked
    have fills := job.fillFile_fills visit.tally visit.session ready visit.info.path location
    rw [ends]
    generalize job.fillFile _ location visit.tally visit.session ready = outcome at *
    cases fills with
    | unreadable => exact filled
    | stopped => exact filled
    | complete => exact (filled.trans (Host.event_asks ..)).trans (job.report_asks ..)

theorem writesOf_small (job : UnpackJob) (visit : Visit) :
    ∀ write ∈ job.writesOf visit, write.size ≤ visit.session.setup.options.chunkSize := by
  unfold writesOf
  split
  · rename_i location ready _
    intro write member
    obtain ⟨chunk, there, rfl⟩ := List.mem_map.mp member
    exact (job.walk_asks visit.tally visit.session ready).2 chunk (List.mem_reverse.mp there)
  · simp

theorem Goes.asks {tally : Tally} {session : Session} {host : Host} {visits : List Visit}
    {final : Outcome (Except UnpackError Tally)}
    (goes : job.Goes tally session host visits final) :
    host.Asks session.setup.options.chunkSize final.host := by
  have treated : ∀ {tally : Tally} {session : Session} {host : Host} {header : Header},
      host.Asks session.setup.options.chunkSize
        (job.treat (meets tally session host header)).host := by
    intro tally session host header
    have asks := job.treat_asks (meets tally session host header)
    rw [show (meets tally session host header).session.setup = _ from session.advance_setup host]
      at asks
    exact (session.advance_asks host _).trans asks
  induction goes with
  | cancelled => exact .refl ..
  | unreadable => exact Session.advance_asks ..
  | ended => exact Session.advance_asks ..
  | stopped => exact treated
  | @member tally next session host header later final _ _ _ _ ih =>
      rw [job.meets_setup tally session host header] at ih
      exact treated.trans ih

end UnpackJob

theorem Unpacks.asks {path output : Path} {options : UnpackOptions} {observer : Observer}
    {host : Host} {visits : List Visit} {result : Except UnpackError Tally × Host}
    (unpacks : Unpacks path output options observer host visits result) :
    host.Asks options.reader.normalized.chunkSize result.2 ∧
      ∀ visit ∈ visits, ∀ write ∈ (options.job output observer).writesOf visit,
        write.size ≤ options.reader.normalized.chunkSize := by
  obtain ⟨opens, keeps⟩ := (Reader.new path options.reader).openSession_asks host
    options.reader.normalized.chunkSize
  cases unpacks with
  | refused refused =>
      rw [refused] at opens
      exact ⟨opens, by simp⟩
  | obstructed opened =>
      rw [opened] at opens
      exact ⟨opens.trans (Session.close_asks ..), by simp⟩
  | @ran session between made _ final opened _ goes =>
      rw [opened] at opens keeps
      have setup : session.setup = ⟨path, options.reader.normalized⟩ := keeps
      have asks := goes.asks
      rw [setup] at asks
      refine ⟨(opens.trans asks).trans (Session.close_asks ..), fun visit member write there => ?_⟩
      have small := (options.job output observer).writesOf_small visit write there
      rwa [(goes.visited visit member).1, setup] at small

end ArchiveTraversal
