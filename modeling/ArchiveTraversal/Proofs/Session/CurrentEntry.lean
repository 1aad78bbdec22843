import ArchiveTraversal.Proofs.Session.Effects

/-!
The member that a session stands on. A history of operations and their answers tells which one that
is, if any, and how many there have been. The header of it is borrowed from the decoder, which
takes it back when it is asked for the next one; so a session keeps no header beyond its own
requests.
-/

namespace ArchiveTraversal

open Decoder

abbrev Log := List (Operation × Answer)

theorem Decoder.Handle.nextHeader_lends {handle : Handle} {lent : LentHeader}
    (given : handle.nextHeader.1.lent = some lent) :
    lent.serial = handle.nextHeader.2.serial ∧ handle.nextHeader.2.lent = some lent.header ∧
      ∃ item, handle.headers.head? = some item ∧ item.header = some lent.header := by
  unfold nextHeader at given ⊢
  cases left : handle.headers with
  | nil => simp [left] at given
  | cons item rest =>
      simp only [left, Option.map_eq_some_iff] at given
      obtain ⟨header, itself, rfl⟩ := given
      exact ⟨rfl, itself, item, rfl, itself⟩

namespace Log

/-- The latest request for a member gave this one, and since then its data has been to be had. -/
def Selects (log : Log) (header : Header) : Prop :=
  ∃ earlier later, log = earlier ++ (.advance, .member header) :: later ∧
    ∀ done ∈ later, done.1.moves = false ∧ done.2.losesData = false

def members (log : Log) : Nat := log.countP fun done => done.1.moves && done.2.member?.isSome

variable {log : Log} {operation : Operation} {answer : Answer} {header : Header}

theorem selects_nil : ¬ Selects [] header := by
  rintro ⟨earlier, later, split, _⟩
  cases earlier <;> cases split

theorem selects_advance :
    Selects (log ++ [(.advance, answer)]) header ↔ answer = .member header := by
  constructor
  · rintro ⟨earlier, later, split, since⟩
    rcases List.eq_nil_or_concat later with rfl | ⟨others, last, rfl⟩
    · cases (List.append_inj' split rfl).2
      rfl
    · rw [List.concat_eq_append, ← List.cons_append, ← List.append_assoc] at split
      cases (List.append_inj' split rfl).2
      have still := (since (.advance, answer) (by simp)).1
      cases still
  · rintro rfl
    exact ⟨log, [], rfl, by simp⟩

theorem selects_still (still : operation.moves = false) :
    Selects (log ++ [(operation, answer)]) header ↔
      Selects log header ∧ answer.losesData = false := by
  constructor
  · rintro ⟨earlier, later, split, since⟩
    rcases List.eq_nil_or_concat later with rfl | ⟨others, last, rfl⟩
    · cases (List.append_inj' split rfl).2
      cases still
    · rw [List.concat_eq_append, ← List.cons_append, ← List.append_assoc] at split
      obtain ⟨before, same⟩ := List.append_inj' split rfl
      cases same
      refine ⟨⟨earlier, others, before, ?_⟩, (since (operation, answer) (by simp)).2⟩
      intro done member
      exact since done (by simp [member])
  · rintro ⟨⟨earlier, later, rfl, since⟩, kept⟩
    refine ⟨earlier, later ++ [(operation, answer)], by simp, ?_⟩
    intro done member
    rcases List.mem_append.mp member with before | last
    · exact since done before
    · cases List.mem_singleton.mp last
      exact ⟨still, kept⟩

theorem members_concat : members (log ++ [(operation, answer)]) =
    log.members + if operation.moves && answer.member?.isSome then 1 else 0 := by
  simp only [members, List.countP_append, List.countP_singleton]

end Log

namespace Session

/-- The session is where its log says, over a script. What it borrowed is what the decoder has lent
on its latest request. -/
structure Tracks (script : Script) (log : Log) (session : Session) : Prop where
  seen : session.entriesSeen = log.members
  entry : ∀ header, session.entry = some header ↔ log.Selects header
  borrowed : ∀ lent, session.current = some lent →
    lent.serial = session.handle.serial ∧ session.handle.lent = some lent.header
  present : session.cursor = .onMember → ∃ lent, session.current = some lent
  toCome : session.Going → session.handle.headers = script.headers.drop session.entriesSeen
  read : ∀ header, session.entry = some header →
    ∃ item, script.headers[session.entriesSeen - 1]? = some item ∧ item.header = some header

variable {script : Script} {log : Log} {session : Session} {host : Host}

theorem entry_eq_none (off : session.cursor ≠ .onMember) : session.entry = none := by
  unfold entry
  cases cursor : session.cursor with
  | onMember => exact absurd cursor off
  | _ => rfl

theorem onMember_of_entry {header : Header} (stands : session.entry = some header) :
    session.cursor = .onMember := by
  by_contra off
  rw [entry_eq_none off] at stands
  cases stands

theorem Tracks.stops (tracks : session.Tracks script log) {operation : Operation} {answer : Answer}
    {after : Session} (seen : after.entriesSeen = session.entriesSeen) (off : ¬ after.Going)
    (borrowed : ∀ lent, after.current = some lent →
      lent.serial = after.handle.serial ∧ after.handle.lent = some lent.header)
    (other : answer.member? = none)
    (unselected : ∀ header, ¬ Log.Selects (log ++ [(operation, answer)]) header) :
    after.Tracks script (log ++ [(operation, answer)]) := by
  constructor
  · simp only [Log.members_concat, other, Option.isSome_none, Bool.and_false]
    exact seen.trans tracks.seen
  · intro header
    constructor
    · intro stands
      exact absurd (.inr (onMember_of_entry stands)) off
    · intro selects
      exact absurd selects (unselected header)
  · exact borrowed
  · intro onMember
    exact absurd (.inr onMember) off
  · intro going
    exact absurd going off
  · intro header stands
    exact absurd (.inr (onMember_of_entry stands)) off

theorem Tracks.advance (tracks : session.Tracks script log) (host : Host) :
    (session.advance host).session.Tracks script
      (log ++ [(.advance, (session.perform host .advance).answer)]) := by
  -- Four of the five ways to move on give no member, and so select none.
  have unselected : ∀ answer : Answer, answer.member? = none →
      ∀ header, ¬ Log.Selects (log ++ [(.advance, answer)]) header := by
    intro answer other header selects
    rw [Log.selects_advance] at selects
    rw [selects] at other
    cases other
  have advances := session.advance_advances host
  simp only [perform, stay]
  generalize session.advance host = outcome at *
  cases advances with
  | exhausted past =>
      exact tracks.stops rfl (fun going => going.not_exhausted past) tracks.borrowed rfl
        (unselected .ended rfl)
  | failed stopped =>
      exact tracks.stops rfl (fun going => going.not_failed stopped) tracks.borrowed rfl
        (unselected _ rfl)
  | ended =>
      exact tracks.stops rfl (fun going => going.not_exhausted rfl) (by rintro _ ⟨⟩) rfl
        (unselected .ended rfl)
  | broken =>
      exact tracks.stops rfl (fun going => going.not_failed rfl) (by rintro _ ⟨⟩) rfl
        (unselected _ rfl)
  | @member lent going _ given =>
      obtain ⟨serial, keeps, item, next, itself⟩ := Handle.nextHeader_lends given
      have toCome := tracks.toCome going
      constructor
      · rw [Log.members_concat, ← tracks.seen]
        rfl
      · intro header
        rw [Log.selects_advance]
        simp only [Session.entry, Option.map_some, Option.some.injEq, Answer.member.injEq]
      · rintro _ ⟨⟩
        exact ⟨serial, keeps⟩
      · intro _
        exact ⟨lent, rfl⟩
      · intro _
        dsimp only
        rw [session.handle.nextHeader_fields.2.2, toCome, List.tail_drop]
      · rintro header ⟨⟩
        refine ⟨item, ?_, itself⟩
        rw [toCome, List.head?_drop] at next
        exact next

theorem Tracks.draws (tracks : session.Tracks script log) {operation : Operation} {answer : Answer}
    {after : Session} (still : operation.moves = false) (other : answer.member? = none)
    (draws : session.Draws answer.archiveError? after) :
    after.Tracks script (log ++ [(operation, answer)]) := by
  have selects : ∀ header, Log.Selects (log ++ [(operation, answer)]) header ↔
      log.Selects header ∧ answer.losesData = false := fun header => Log.selects_still still
  have told : answer.losesData = answer.archiveError?.any ArchiveError.isLoss := rfl
  generalize answer.archiveError? = failure at *
  cases draws with
  | served data diagnostic buffer harmless =>
      constructor
      · simp only [Log.members_concat, other, Option.isSome_none, Bool.and_false]
        exact tracks.seen
      · intro header
        rw [selects, told, harmless]
        exact (tracks.entry header).trans (by simp)
      · exact tracks.borrowed
      · exact tracks.present
      · exact tracks.toCome
      · exact tracks.read
  | lost data diagnostic buffer onMember loss =>
      have unselected : ∀ header, ¬ Log.Selects (log ++ [(operation, answer)]) header := by
        intro header selected
        have kept := ((selects header).mp selected).2
        rw [told, Option.any_some, loss] at kept
        cases kept
      exact tracks.stops rfl (fun going => going.not_failed rfl) tracks.borrowed other unselected

theorem Tracks.perform (tracks : session.Tracks script log) {operation : Operation} (host : Host)
    (stays : operation.Stays) :
    ∃ after, (session.perform host operation).position = .inSession after ∧
      after.Tracks script (log ++ [(operation, (session.perform host operation).answer)]) := by
  cases moves : operation.moves with
  | false =>
      obtain ⟨⟨after, position, draws⟩, other⟩ := session.perform_draws host stays moves
      exact ⟨after, position, tracks.draws moves other draws⟩
  | true =>
      cases operation with
      | advance => exact ⟨_, rfl, tracks.advance host⟩
      | _ => cases moves

theorem Tracks.runProgram (tracks : session.Tracks script log) {history : List Operation}
    (stays : ∀ operation ∈ history, operation.Stays) (host : Host) :
    ∃ answers after between,
      runProgram history (.inSession session) host = (answers, .inSession after, between) ∧
      after.Tracks script (log ++ history.zip answers) := by
  induction history generalizing session log host with
  | nil =>
      refine ⟨[], session, host, rfl, ?_⟩
      rw [List.zip_nil_left, List.append_nil]
      exact tracks
  | cons operation rest ih =>
      obtain ⟨next, position, onward⟩ := tracks.perform host (stays operation List.mem_cons_self)
      obtain ⟨answers, after, between, ran, reached⟩ :=
        ih onward (fun later member => stays later (List.mem_cons_of_mem _ member))
          (session.perform host operation).host
      refine ⟨(session.perform host operation).answer :: answers, after, between, ?_, ?_⟩
      · simp only [ArchiveTraversal.runProgram, Position.perform, position, ran]
      · rw [List.append_assoc] at reached
        exact reached

theorem readChunk_of_directory {header : Header} (stands : session.entry = some header)
    (directory : header.isDirectory = true) (host : Host) :
    session.readChunk host = ⟨.ok [], session, host⟩ := by
  have onMember := onMember_of_entry stands
  simp only [entry, onMember] at stands
  obtain ⟨lent, borrowed, rfl⟩ := Option.map_eq_some_iff.mp stands
  simp only [readChunk, onMember, borrowed, Option.any_some, directory, ↓reduceIte]

theorem tracks_of_opened {reader : Reader} {before : Host}
    (opened : reader.openSession before = (.opened session, host)) :
    ∃ script, before.decoders.head? = some (some script) ∧ session.Tracks script [] := by
  obtain ⟨script, buffer, next, rfl⟩ := Reader.begins opened
  refine ⟨script, next, rfl, ?_, ?_, ?_, ?_, ?_⟩
  · intro header
    constructor
    · intro none
      cases none
    · intro selects
      exact absurd selects Log.selects_nil
  · intro _ none
    cases none
  · intro start
    cases start
  · intro _
    rfl
  · intro _ none
    cases none

end Session

/-- However a session has been used since it was opened, it counts the members that it has given,
and it stands on the one that its latest request for a member gave, if there was one and the decoder
has not failed on its data since. The header is the one that the decoder read, whatever was done
with the data in between. What the session has borrowed of the decoder has not been taken back;
while it stands on a member it has that to look at, and so it asks for no data of a directory. -/
theorem session_follows_log {reader : Reader} {before host : Host} {session : Session}
    (opened : reader.openSession before = (.opened session, host)) {history : List Operation}
    (stays : ∀ operation ∈ history, operation.Stays) :
    ∃ script answers after between, before.decoders.head? = some (some script) ∧
      runProgram history (.inSession session) host = (answers, .inSession after, between) ∧
      after.entriesSeen = Log.members (history.zip answers) ∧
      (∀ header, after.entry = some header ↔ Log.Selects (history.zip answers) header) ∧
      (∀ header, after.entry = some header → ∃ item,
        script.headers[after.entriesSeen - 1]? = some item ∧ item.header = some header) ∧
      (∀ lent, after.current = some lent →
        lent.serial = after.handle.serial ∧ after.handle.lent = some lent.header) ∧
      (after.cursor = .onMember → ∃ lent, after.current = some lent) ∧
      ∀ header, after.entry = some header → header.isDirectory →
        after.readChunk between = ⟨.ok [], after, between⟩ := by
  obtain ⟨script, next, tracks⟩ := Session.tracks_of_opened opened
  obtain ⟨answers, after, between, ran, reached⟩ := tracks.runProgram stays host
  refine ⟨script, answers, after, between, next, ran, reached.seen, reached.entry, reached.read,
    reached.borrowed, reached.present, ?_⟩
  intro header stands directory
  exact Session.readChunk_of_directory stands directory between

/-- A copy that its destination cuts short leaves the second member selected. -/
theorem second_member_still_selected :
    let archive : Path := [0x78]
    let folder : Header := ⟨some [0x64], none, 0, true, 0o040755⟩
    let file : Header := ⟨some [0x61], none, 3, true, 0o100644⟩
    let script : Script :=
      { headers := [{ header := some folder },
          { header := some file, data := [{ serving := .content [1, 2, 3] }] }] }
    let before : Host :=
      { decoders := [some script], tree := { entries := [(archive, .file [0])] } }
    let history : List Operation :=
      [.advance, .read, .advance, .copy (SinkLimits.sink { room := some 1 }) {}, .skip, .read]
    ∃ after between,
      runProgram (.openSession :: history) (.atRest (.new archive)) before =
        ([.opened, .member folder, .chunk [], .member file, .copied (.error (.io diskFull)) [1],
          .skipped, .chunk []], .inSession after, between) ∧
      after.entry = some file ∧ after.entriesSeen = 2 := by
  intro archive folder file script before history
  let session : Session :=
    { setup := ⟨archive, ReaderOptions.normalized {}⟩, buffer := [], handle := .ofScript 0 script }
  let host := ((Reader.new archive).openSession before).2
  have opened : (Reader.new archive).openSession before = (.opened session, host) :=
    Prod.ext (by cbv) rfl
  have stays : ∀ operation ∈ history, operation.Stays := by simp [history, Operation.Stays]
  obtain ⟨_, answers, after, between, _, ran, seen, entry, _⟩ := session_follows_log opened stays
  have answered : (runProgram history (.inSession session) host).1 =
      [.member folder, .chunk [], .member file, .copied (.error (.io diskFull)) [1],
        .skipped, .chunk []] := by cbv
  rw [ran] at answered
  subst answered
  refine ⟨after, between, ?_, ?_, seen.trans (by cbv)⟩
  · rw [runProgram]
    simp only [Position.perform, Reader.perform, opened, ran]
  · rw [entry]
    refine ⟨[(.advance, .member folder), (.read, .chunk [])], _, rfl, ?_⟩
    simp [Operation.moves, Answer.losesData, Answer.archiveError?]

end ArchiveTraversal
