import ArchiveTraversal.Proofs.Journal.Account
import ArchiveTraversal.Proofs.Reader.Reuse

/-!
The journal of a whole program falls into chapters. Each successful opening begins one, which is of
a single session and goes on until the decoder is freed, be it by closing the session, by dropping
it, or by what is done with the reader after the session has been abandoned. An opening that fails
is a chapter without an event, and whatever else is done with a reader at rest leaves no record.
-/

namespace ArchiveTraversal

open Decoder

/-- One session, from the opening of the archive to the release of the decoder. -/
structure Tale where
  script : Script
  number : Nat
  /-- What the session is asked for, and its answers. -/
  during : Log := []
  later : Log := []
  body : List Record := []
  /-- The decoder is freed because the reader is opened once more. -/
  stale : Bool := false

namespace Tale

def start (tale : Tale) : Handle :=
  (Handle.ofScript tale.number tale.script).answer tale.script.openFile

def log (tale : Tale) : Log := (.openSession, .opened) :: tale.during ++ tale.later

def opening (setup : Setup) (tale : Tale) : List Record :=
  (openingCalls setup.options.blockSize setup.path).map (.call tale.number) ++
    [.event (.opened setup.path setup.options.blockSize tale.start.filterNames)]

/-- The news of the release: with the number of headers read, or as a warning. -/
def farewell (setup : Setup) (tale : Tale) : Event :=
  if tale.script.freeCode = 0 then
    .closed setup.path (tale.body.filterMap Record.header?).length
  else .closeFailed setup.path

def closing (setup : Setup) (tale : Tale) : List Record :=
  (if tale.stale then [.event (.staleSession setup.path)] else []) ++
    [.call tale.number .free, .event (tale.farewell setup)]

def records (setup : Setup) (tale : Tale) : List Record :=
  tale.opening setup ++ tale.body ++ tale.closing setup

/-- The tale is of a decoder that there was on the first host, and gives a faithful account. Neither
while the session is used nor afterwards is the reader opened. -/
structure Sound (first : Host) (tale : Tale) : Prop where
  decoder : ∃ count, tale.number = first.allocated + count ∧
    first.decoders[count]? = some (some tale.script)
  used : ∀ done ∈ tale.during, done.1.Stays ∧ done.2 ≠ .opened
  givenUp : ∀ done ∈ tale.later.head?, ¬ done.1.Stays
  left : ∀ done ∈ tale.later, done.1 ≠ .openSession
  faithful : Faithful tale.start tale.during tale.body

end Tale

inductive Chapter where
  | pause (operation : Operation) (answer : Answer)
  | refusal (error : ArchiveError) (number : Nat) (calls : List Call)
  | session (tale : Tale)

namespace Chapter

def log : Chapter → Log
  | .pause operation answer => [(operation, answer)]
  | .refusal error _ _ => [(.openSession, .failed error)]
  | .session tale => tale.log

/-- What this has left in the journal. A failed opening leaves calls and no event. -/
def records (setup : Setup) : Chapter → List Record
  | .pause .. => []
  | .refusal _ number calls => calls.map (.call number)
  | .session tale => tale.records setup

def Sound (first : Host) : Chapter → Prop
  | .pause operation _ => operation ≠ .openSession
  | .refusal .. => True
  | .session tale => tale.Sound first

end Chapter

/-- Of the decoders of the first host, so many have been handed out since. -/
def Host.HandsOut (first host : Host) : Prop :=
  ∃ count, host.allocated = first.allocated + count ∧ host.decoders = first.decoders.drop count

/-- All chapters are complete, and they are all that there is in the journal. -/
structure Shut (first : Host) (setup : Setup) (chapters : List Chapter) (host : Host) : Prop where
  sound : ∀ chapter ∈ chapters, chapter.Sound first
  handsOut : first.HandsOut host
  adds : first.Adds host (chapters.flatMap (Chapter.records setup))

/-- The last chapter is not yet complete: its session is still there. -/
structure Untold (first : Host) (setup : Setup) (chapters : List Chapter) (tale : Tale)
    (session : Session) (host : Host) : Prop where
  sound : ∀ chapter ∈ chapters, chapter.Sound first
  handsOut : first.HandsOut host
  adds : first.Adds host
    (chapters.flatMap (Chapter.records setup) ++ (tale.opening setup ++ tale.body))
  own : tale.Sound first
  setup : session.setup = setup
  told : session.Told tale.start tale.during tale.body

section

variable {first host after : Host} {setup : Setup} {chapters : List Chapter} {tale : Tale}
  {session : Session}

theorem Host.HandsOut.extends (handsOut : first.HandsOut host) (kept : host.Extends after) :
    first.HandsOut after := by
  obtain ⟨count, allocated, decoders⟩ := handsOut
  exact ⟨count, kept.allocated.trans allocated, kept.decoders.trans decoders⟩

theorem Host.HandsOut.callAll (handsOut : first.HandsOut host) (calls : List Call) :
    first.HandsOut (host.handedOut.callAll host.allocated calls) := by
  obtain ⟨count, number, left⟩ := handsOut
  obtain ⟨decoders, allocated⟩ := host.handedOut.callAll_decoders host.allocated calls
  refine ⟨count + 1, ?_, ?_⟩
  · rw [allocated, handedOut, number]
    rfl
  · rw [decoders, handedOut, left, List.tail_drop]

theorem Host.handedOut_adds (host : Host) (calls : List Call) :
    host.Adds (host.handedOut.callAll host.allocated calls)
      (calls.map (.call host.allocated)) :=
  host.handedOut.callAll_journal host.allocated calls

theorem Shut.chapter {chapter : Chapter} (shut : Shut first setup chapters host)
    (sound : chapter.Sound first) (handsOut : first.HandsOut after)
    (adds : host.Adds after (chapter.records setup)) :
    Shut first setup (chapters ++ [chapter]) after := by
  refine ⟨?_, handsOut, ?_⟩
  · intro other member
    rcases List.mem_append.mp member with early | last
    · exact shut.sound other early
    · rw [List.mem_singleton.mp last]
      exact sound
  · rw [List.flatMap_append, List.flatMap_singleton]
    exact shut.adds.trans adds

theorem Session.Told.close (told : session.Told tale.start tale.during tale.body) (host : Host) :
    host.Adds (session.close host).2.2
      [.call tale.number .free, .event (tale.farewell session.setup)] := by
  have freed := (host.record_adds (.call session.handle.number .free)).trans
    (Host.event_adds _ (if session.handle.script.freeCode = 0 then
      .closed session.path session.entriesSeen else .closeFailed session.path))
  have script : session.handle.script = tale.script := by
    rw [told.handle, Handle.script_after]
    rfl
  have farewell : tale.farewell session.setup = if session.handle.script.freeCode = 0 then
      .closed session.path session.entriesSeen else .closeFailed session.path := by
    rw [Tale.farewell, told.faithful.counted, ← told.seen, script]
    rfl
  have number : session.handle.number = tale.number := told.number
  rw [farewell, ← number]
  simp only [Session.close]
  exact freed

theorem Untold.close (untold : Untold first setup chapters tale session host) (stale : Bool) :
    Shut first setup (chapters ++ [.session { tale with stale := stale }])
      (session.close (if stale then host.event (.staleSession session.path) else host)).2.2 := by
  obtain ⟨sound, handsOut, adds, own, rfl, told⟩ := untold
  have noticed : host.Adds (if stale then host.event (.staleSession session.path) else host)
      (if stale then [.event (.staleSession session.path)] else []) := by
    cases stale with
    | false => exact .refl host
    | true => exact host.event_adds _
  have kept : host.Extends (if stale then host.event (.staleSession session.path) else host) := by
    cases stale with
    | false => exact .refl host
    | true => exact host.event_extends _
  refine ⟨?_, handsOut.extends (kept.trans (session.close_extends _)), ?_⟩
  · intro other member
    rcases List.mem_append.mp member with early | last
    · exact sound other early
    · rw [List.mem_singleton.mp last]
      exact ⟨own.decoder, own.used, own.givenUp, own.left, own.faithful⟩
  · have whole := adds.trans (noticed.trans (told.close _))
    rw [List.append_assoc] at whole
    rw [List.flatMap_append, List.flatMap_singleton]
    exact whole

/-- What is done after the session has been given up belongs to its chapter. -/
theorem Untold.later (untold : Untold first setup chapters tale session host)
    {done : Operation × Answer} (left : done.1 ≠ .openSession)
    (givenUp : tale.later = [] → ¬ done.1.Stays) :
    Untold first setup chapters { tale with later := tale.later ++ [done] } session host := by
  obtain ⟨sound, handsOut, adds, own, same, told⟩ := untold
  refine ⟨sound, handsOut, adds, ⟨own.decoder, own.used, ?_, ?_, own.faithful⟩, same, told⟩
  · intro other first
    cases before : tale.later with
    | nil =>
        rw [before] at first
        cases first
        exact givenUp before
    | cons earlier rest =>
        rw [before] at first
        cases first
        exact own.givenUp _ (by rw [before]; rfl)
  · intro other member
    rcases List.mem_append.mp member with early | last
    · exact own.left other early
    · rw [List.mem_singleton.mp last]
      exact left

end

namespace Session

theorem perform_not_opened (session : Session) (host : Host) (operation : Operation) :
    (session.perform host operation).answer ≠ .opened := by
  cases operation with
  | advance =>
      simp only [perform, stay]
      split <;> simp
  | read =>
      simp only [perform, stay]
      split <;> simp
  | skip =>
      simp only [perform, stay]
      split <;> simp
  | _ =>
      intro same
      cases same

end Session

section

variable {first host : Host} {setup : Setup} {chapters : List Chapter} {tale : Tale}
  {session : Session}

theorem Untold.perform (untold : Untold first setup chapters tale session host)
    {operation : Operation} (stays : operation.Stays)
    (one : (session.perform host operation).answer.ofMany = false) :
    ∃ more after, (session.perform host operation).position = .inSession after ∧
      Untold first setup chapters
        { tale with
          during := tale.during ++ [(operation, (session.perform host operation).answer)]
          body := tale.body ++ more }
        after (session.perform host operation).host := by
  obtain ⟨sound, handsOut, adds, own, rfl, told⟩ := untold
  obtain ⟨more, after, position, further, onward⟩ := told.perform host stays one
  have kept := (session.perform_fits host operation).kept
  rw [position] at kept
  refine ⟨more, after, position, sound, handsOut.extends (session.perform_extends host operation),
    ?_, ⟨own.decoder, ?_, own.givenUp, own.left, onward.faithful⟩, kept, onward⟩
  · have whole := adds.trans further
    rw [List.append_assoc, List.append_assoc] at whole
    exact whole
  · intro done member
    rcases List.mem_append.mp member with early | last
    · exact own.used done early
    · rw [List.mem_singleton.mp last]
      exact ⟨stays, session.perform_not_opened host operation⟩

inductive NextChapter (first : Host) (setup : Setup) (chapters : List Chapter) :
    Opening × Host → Prop
  | opened {tale : Tale} {session : Session} {after : Host} (unused : tale.during = [])
      (held : tale.later = []) (untold : Untold first setup chapters tale session after) :
      NextChapter first setup chapters (.opened session, after)
  | refused {error : ArchiveError} {number : Nat} {calls : List Call} {buffer : Bytes}
      {after : Host} (shut : Shut first setup (chapters ++ [.refusal error number calls]) after) :
      NextChapter first setup chapters (.refused error (.closed setup buffer), after)

theorem Shut.refused (shut : Shut first setup chapters host) (error : ArchiveError)
    (calls : List Call) :
    Shut first setup (chapters ++ [.refusal error host.allocated calls])
      (host.handedOut.callAll host.allocated calls) :=
  shut.chapter trivial (shut.handsOut.callAll calls) (host.handedOut_adds calls)

theorem Shut.opened {script : Script} {later : List (Option Script)}
    (shut : Shut first setup chapters host) (next : host.decoders = some script :: later)
    (own : session.setup = setup) :
    let tale : Tale := { script := script, number := host.allocated }
    session.Told tale.start [] [] →
    Untold first setup chapters tale session
      ((host.handedOut.callAll host.allocated (openingCalls setup.options.blockSize setup.path)).event
        (.opened setup.path setup.options.blockSize tale.start.filterNames)) := by
  intro tale told
  let calls := openingCalls setup.options.blockSize setup.path
  have noted := Host.event_extends (host.handedOut.callAll host.allocated calls)
    (.opened setup.path setup.options.blockSize tale.start.filterNames)
  have opening := (host.handedOut_adds calls).trans
    (Host.event_adds _ (.opened setup.path setup.options.blockSize tale.start.filterNames))
  rw [← List.append_nil (_ ++ _)] at opening
  have decoder : ∃ count, host.allocated = first.allocated + count ∧
      first.decoders[count]? = some (some script) := by
    obtain ⟨count, number, decoders⟩ := shut.handsOut
    refine ⟨count, number, ?_⟩
    rw [← List.head?_drop, ← decoders, next, List.head?_cons]
  have sound : tale.Sound first :=
    ⟨decoder, by simp [tale], by simp [tale], by simp [tale], .nil _⟩
  exact ⟨shut.sound, (shut.handsOut.callAll calls).extends noted, shut.adds.trans opening, sound,
    own, told⟩

theorem Shut.openSession {reader : Reader} (own : reader.setup = setup)
    (shut : Shut first setup chapters (reader.releaseStale host).2.2) :
    NextChapter first setup chapters (reader.openSession host) := by
  have same : (reader.releaseStale host).1 = setup := by
    rw [← own]
    cases reader <;> rfl
  have acquires := Reader.acquire_acquires (reader.releaseStale host).1
    (reader.releaseStale host).2.2
  unfold Reader.openSession
  dsimp only
  rw [same] at acquires ⊢
  generalize (reader.releaseStale host).2.2 = between at *
  generalize Reader.acquire setup between = outcome at *
  cases acquires with
  | obstructed =>
      have nothing (error : ArchiveError) :
          between.Adds between (Chapter.records setup (.refusal error 0 [])) := .refl between
      exact .refused (shut.chapter trivial shut.handsOut (nothing _))
  | unavailable => exact .refused (shut.refused _ _)
  | refused => exact .refused (shut.refused _ _)
  | @ready script later _ next =>
      let tale : Tale := { script := script, number := between.allocated }
      exact @NextChapter.opened _ _ _ tale _ _ rfl rfl
        (shut.opened next rfl ⟨.nil _, rfl, rfl, by simp⟩)

end

/-- All that has been done is told in chapters, up to where things are. -/
def Position.Recounts (first : Host) (setup : Setup) (log : Log) : Position → Host → Prop
  | .atRest (.closed own _), host => own = setup ∧ ∃ chapters,
      log = chapters.flatMap Chapter.log ∧ Shut first setup chapters host
  | .atRest (.abandoned session), host => ∃ chapters tale, tale.later ≠ [] ∧
      log = chapters.flatMap Chapter.log ++ tale.log ∧
      Untold first setup chapters tale session host
  | .inSession session, host => ∃ chapters tale, tale.later = [] ∧
      log = chapters.flatMap Chapter.log ++ tale.log ∧
      Untold first setup chapters tale session host

section

variable {first host : Host} {setup : Setup} {log : Log} {chapters : List Chapter} {tale : Tale}

theorem Tale.log_later (tale : Tale) (done : Operation × Answer) :
    Tale.log { tale with later := tale.later ++ [done] } = tale.log ++ [done] :=
  (List.append_assoc ..).symm

theorem Tale.log_during {tale : Tale} (held : tale.later = []) (done : Operation × Answer)
    (body : List Record) :
    Tale.log { tale with during := tale.during ++ [done], body := body } = tale.log ++ [done] := by
  simp only [Tale.log, held, List.append_nil]
  rfl

theorem flatMap_log_concat (chapter : Chapter) :
    (chapters ++ [chapter]).flatMap Chapter.log =
      chapters.flatMap Chapter.log ++ chapter.log := by
  rw [List.flatMap_append, List.flatMap_singleton]

theorem Shut.perform_openSession {reader : Reader} (own : reader.setup = setup)
    (shut : Shut first setup chapters (reader.releaseStale host).2.2) :
    let performed := reader.perform host .openSession
    performed.position.Recounts first setup
      (chapters.flatMap Chapter.log ++ [(.openSession, performed.answer)]) performed.host := by
  have next := shut.openSession own
  simp only [Reader.perform]
  generalize reader.openSession host = outcome at *
  cases next with
  | @opened tale _ _ unused held untold =>
      refine ⟨chapters, tale, held, ?_, untold⟩
      rw [Tale.log, unused, held]
      rfl
  | refused shut =>
      refine ⟨rfl, _, ?_, shut⟩
      rw [flatMap_log_concat]
      rfl

theorem Shut.recounts_pause {operation : Operation} (shut : Shut first setup chapters host)
    (other : operation ≠ .openSession) (answer : Answer) (buffer : Bytes) :
    (Position.atRest (.closed setup buffer)).Recounts first setup
      (chapters.flatMap Chapter.log ++ [(operation, answer)]) host := by
  have pause : Shut first setup (chapters ++ [.pause operation answer]) host :=
    shut.chapter other shut.handsOut (.refl host)
  exact ⟨rfl, _, (flatMap_log_concat (.pause operation answer)).symm, pause⟩

theorem Untold.recounts_close {session : Session}
    (untold : Untold first setup chapters tale session host) {done : Operation × Answer}
    (left : done.1 ≠ .openSession) (givenUp : tale.later = [] → ¬ done.1.Stays) :
    (Position.atRest (session.close host).2.1).Recounts first setup
      (chapters.flatMap Chapter.log ++ tale.log ++ [done]) (session.close host).2.2 := by
  refine ⟨untold.setup, _, ?_, (untold.later left givenUp).close false⟩
  rw [flatMap_log_concat, List.append_assoc, ← Tale.log_later]
  rfl

theorem Untold.recounts_abandoned {session : Session}
    (untold : Untold first setup chapters tale session host) {done : Operation × Answer}
    (left : done.1 ≠ .openSession) (givenUp : tale.later = [] → ¬ done.1.Stays) :
    (Position.atRest (.abandoned session)).Recounts first setup
      (chapters.flatMap Chapter.log ++ tale.log ++ [done]) host := by
  refine ⟨chapters, _, ?_, ?_, untold.later left givenUp⟩
  · simp
  · rw [List.append_assoc, ← Tale.log_later]

theorem Untold.recounts_perform {session : Session} (held : tale.later = [])
    (untold : Untold first setup chapters tale session host) {operation : Operation}
    (one : (session.perform host operation).answer.ofMany = false) :
    (session.perform host operation).position.Recounts first setup
      (chapters.flatMap Chapter.log ++ tale.log ++
        [(operation, (session.perform host operation).answer)])
      (session.perform host operation).host := by
  by_cases stays : operation.Stays
  · obtain ⟨more, after, position, onward⟩ := untold.perform stays one
    let done := (operation, (session.perform host operation).answer)
    let extended : Tale :=
      { tale with during := tale.during ++ [done], body := tale.body ++ more }
    have log : extended.log = tale.log ++ [done] := Tale.log_during held done _
    rw [position, List.append_assoc, ← log]
    exact ⟨chapters, extended, held, rfl, onward⟩
  · cases operation with
    | close => exact untold.recounts_close (by simp) fun _ => stays
    | drop => exact untold.recounts_close (by simp) fun _ => stays
    | abandon => exact untold.recounts_abandoned (by simp) fun _ => stays
    | _ => exact absurd trivial stays

theorem Position.Recounts.perform {position : Position}
    (recounts : position.Recounts first setup log host) {operation : Operation}
    (one : (position.perform host operation).answer.ofMany = false) :
    (position.perform host operation).position.Recounts first setup
      (log ++ [(operation, (position.perform host operation).answer)])
      (position.perform host operation).host := by
  cases position with
  | inSession session =>
      obtain ⟨chapters, tale, held, rfl, untold⟩ := recounts
      exact untold.recounts_perform held one
  | atRest reader =>
      cases reader with
      | closed own buffer =>
          obtain ⟨rfl, chapters, rfl, shut⟩ := recounts
          cases operation with
          | openSession => exact Shut.perform_openSession rfl shut
          | _ => exact shut.recounts_pause (by simp) _ buffer
      | abandoned session =>
          obtain ⟨chapters, tale, gone, rfl, untold⟩ := recounts
          cases operation with
          | openSession =>
              have shut := untold.close true
              have onward := @Shut.perform_openSession _ host _ _ (.abandoned session) untold.setup
                shut
              rw [flatMap_log_concat] at onward
              exact onward
          | close => exact untold.recounts_close (by simp) fun none => absurd none gone
          | _ => exact untold.recounts_abandoned (by simp) fun none => absurd none gone

theorem Position.Recounts.runs {position last : Position} {after : Host} {more : Log}
    (recounts : position.Recounts first setup log host)
    (single : ∀ done ∈ more, done.2.ofMany = false)
    (runs : more.Runs position host last after) :
    last.Recounts first setup (log ++ more) after := by
  induction more generalizing position host log with
  | nil =>
      cases runs
      rw [List.append_nil]
      exact recounts
  | cons done rest ih =>
      obtain ⟨told, rest⟩ := runs.uncons
      have one := single done List.mem_cons_self
      rw [← told] at one
      have whole := ih (recounts.perform one)
        (fun later member => single later (List.mem_cons_of_mem _ member)) rest
      rw [told, List.append_assoc] at whole
      exact whole

theorem Untold.finish {session : Session}
    (untold : Untold first setup chapters tale session host) :
    ∃ complete, chapters.flatMap Chapter.log ++ tale.log = complete.flatMap Chapter.log ∧
      Shut first setup complete (session.close host).2.2 :=
  ⟨_, (flatMap_log_concat (.session { tale with stale := false })).symm, untold.close false⟩

theorem Position.Recounts.finish {position : Position}
    (recounts : position.Recounts first setup log host) :
    ∃ chapters, log = chapters.flatMap Chapter.log ∧
      Shut first setup chapters (position.finish host) := by
  cases position with
  | inSession session =>
      obtain ⟨chapters, tale, _, rfl, untold⟩ := recounts
      exact untold.finish
  | atRest reader =>
      cases reader with
      | closed own buffer =>
          obtain ⟨_, chapters, rfl, shut⟩ := recounts
          exact ⟨chapters, rfl, shut⟩
      | abandoned session =>
          obtain ⟨chapters, tale, _, rfl, untold⟩ := recounts
          exact untold.finish

end

theorem Spells.single_entries {done : Operation × Answer} {plain : Log}
    (spells : Spells done plain) : ∀ entry ∈ plain, entry.2.ofMany = false := by
  have reads (chunks : List Bytes) {last : List Answer}
      (single : ∀ answer ∈ last, answer.ofMany = false) :
      ∀ entry ∈ Log.ofReads chunks last, entry.2.ofMany = false := by
    intro entry member
    obtain ⟨answer, answered, rfl⟩ := List.mem_map.mp member
    rcases List.mem_append.mp answered with early | late
    · obtain ⟨chunk, _, rfl⟩ := List.mem_map.mp early
      rfl
    · exact single answer late
  cases spells with
  | single one => simpa using one
  | drained chunks failure => exact reads chunks (by cases failure <;> simp [Answer.ofMany])
  | copied => exact reads _ (by simp [Answer.ofMany])
  | unreadable => exact reads _ (by simp [Answer.ofMany])
  | cutShort => exact reads _ (by simp)

theorem Spelled.single_entries {log plain : Log} (spelled : Spelled log plain) :
    ∀ entry ∈ plain, entry.2.ofMany = false := by
  induction spelled with
  | nil => simp
  | cons spells _ ih =>
      intro entry member
      rcases List.mem_append.mp member with early | late
      · exact spells.single_entries entry early
      · exact ih entry late

/-- The journal of a program is a faithful account of it. Told by single requests, the program falls
into chapters, and what these leave, one after the other, is the journal when the reader has been
dropped in the end. Each successful opening has a chapter of its own, with one event for it and one
for the release of the decoder, which is a warning just if the decoder reports a failure; an opening
that fails leaves no event. Between these two events, headers are counted from one as members are
given, and each request for data that does not fail is told with the size of the chunk it gives; so
these add up to all that is given. The end of the archive is told at most once, and so is a failure,
but not both, and nothing is told of the traversal after that; the end, like the release, comes with
the number of headers that have been read. It makes no difference to this who frees the decoder of a
session that has been abandoned. -/
theorem journal_faithful (path : Path) (options : ReaderOptions) (operations : List Operation)
    (host : Host) :
    let reader := Reader.new path options
    let ran := runProgram operations (.atRest reader) host
    ∃ (plain : Log) (chapters : List Chapter),
      Spelled (operations.zip ran.1) plain ∧
      plain.Runs (.atRest reader) host ran.2.1 ran.2.2 ∧
      plain = chapters.flatMap Chapter.log ∧
      host.Adds (ran.2.1.finish ran.2.2) (chapters.flatMap (Chapter.records reader.setup)) ∧
      (∀ operation answer, .pause operation answer ∈ chapters → operation ≠ .openSession) ∧
      ∀ tale, .session tale ∈ chapters → tale.Sound host := by
  intro reader ran
  obtain ⟨plain, spelled, runs⟩ := runProgram_singly operations (.atRest reader) host
  have start : (Position.atRest reader).Recounts host reader.setup [] host :=
    ⟨rfl, [], rfl, by simp, ⟨0, rfl, rfl⟩, .refl host⟩
  obtain ⟨chapters, told, shut⟩ := (start.runs spelled.single_entries runs).finish
  exact ⟨plain, chapters, spelled, runs, told, shut.adds,
    fun _ _ member => shut.sound _ member, fun _ member => shut.sound _ member⟩

/-- A session is abandoned on its only member, whose data it has read twice; the second opening
fails for want of a decoder. The decoder of the first is freed before that, with a complaint. -/
example :
    let archive : Path := [0x78]
    let header : Header := ⟨some [0x61], none, 3, true, 0o100644⟩
    let script : Script :=
      { freeCode := -1
        headers := [{ header := some header, data := [{ serving := .content [1, 2, 3] }] }] }
    let host : Host :=
      { decoders := [some script], tree := { entries := [(archive, .file [0])] } }
    let ran := runProgram [.openSession, .advance, .drain, .abandon, .openSession]
      (.atRest (.new archive { chunkSize := 4 })) host
    ((ran.2.1.finish ran.2.2).journal.toList.filter fun entry => entry.call?.isNone) =
      [.event (.opened archive 10240 []), .event (.headerRead 1 "a" 3), .event (.chunkRead 3),
        .event (.chunkRead 0), .event (.staleSession archive), .event (.closeFailed archive)] := by
  cbv

end ArchiveTraversal
