import ArchiveTraversal.Proofs.Session.CurrentEntry

/-!
A traversal does not depend on what is done with the data on the way. Sessions keep pace if they
have come equally far in the same archive, whatever they have read of it. What is done between two
requests for members leaves them so, as long as the decoder does not fail on it; so a history can
be compared with its requests alone, and two histories with equally many requests with each other.
-/

namespace ArchiveTraversal

open Decoder

namespace Log

def requests (log : Log) : List Answer := (log.filter (·.1.moves)).map (·.2)

/-- The decoder has not failed in between. -/
def Lossless (log : Log) : Prop := ∀ done ∈ log, done.1.moves = false → done.2.losesData = false

end Log

namespace Session

structure KeepsPace (one other : Session) : Prop where
  path : other.path = one.path
  cursor : other.cursor = one.cursor
  headers : other.handle.headers = one.handle.headers
  entriesSeen : other.entriesSeen = one.entriesSeen

theorem KeepsPace.refl (session : Session) : session.KeepsPace session := ⟨rfl, rfl, rfl, rfl⟩

variable {one other : Session} {host otherHost : Host}

theorem KeepsPace.going (pace : one.KeepsPace other) : other.Going ↔ one.Going := by
  rw [Going, Going, pace.cursor]

theorem advance_off {session : Session} (off : ¬ session.Going) (host : Host) :
    (session.advance host).session = session ∧ (session.advance host).host = host := by
  have advances := session.advance_advances host
  generalize session.advance host = outcome at *
  cases advances with
  | exhausted => exact ⟨rfl, rfl⟩
  | failed => exact ⟨rfl, rfl⟩
  | member going => exact absurd going off
  | ended going => exact absurd going off
  | broken going => exact absurd going off

theorem KeepsPace.advance_value (pace : one.KeepsPace other) (host otherHost : Host) :
    (other.advance otherHost).value = (one.advance host).value := by
  by_cases going : one.Going
  · exact going.advance_congr (pace.going.mpr going) pace.path (congrArg List.head? pace.headers)
      host otherHost
  · unfold Going at going
    cases cursor : one.cursor with
    | start => exact absurd (.inl cursor) going
    | onMember => exact absurd (.inr cursor) going
    | exhausted => simp only [Session.advance, cursor, pace.cursor.trans cursor]
    | failed => simp only [Session.advance, cursor, pace.cursor.trans cursor, readError, pace.path]

theorem KeepsPace.advance (pace : one.KeepsPace other) (host otherHost : Host) :
    (one.advance host).session.KeepsPace (other.advance otherHost).session := by
  have value := pace.advance_value host otherHost
  constructor
  · rw [Session.path, Session.path, advance_setup, advance_setup]
    exact pace.path
  · rw [advance_cursor, advance_cursor, value]
  · by_cases going : one.Going
    · rw [going.advance_headers, (pace.going.mpr going).advance_headers, pace.headers]
    · have goingToo : ¬ other.Going := fun there => going (pace.going.mp there)
      rw [(advance_off going host).1, (advance_off goingToo otherHost).1, pace.headers]
  · rw [advance_entriesSeen, advance_entriesSeen, value, pace.entriesSeen]

theorem KeepsPace.draws (pace : one.KeepsPace other) {failure : Option ArchiveError}
    {after : Session} (draws : one.Draws failure after) (harmless : failure.any ArchiveError.isLoss = false) :
    after.KeepsPace other := by
  cases draws with
  | served => exact ⟨pace.path, pace.cursor, pace.headers, pace.entriesSeen⟩
  | lost _ _ _ _ loss => cases loss.symm.trans harmless

def movedOn (count : Nat) (session : Session) (host : Host) : List Answer × Position × Host :=
  runProgram (List.replicate count .advance) (.inSession session) host

theorem movedOn_succ (count : Nat) (session : Session) (host : Host) :
    session.movedOn (count + 1) host =
      let moved := (session.advance host).session.movedOn count (session.advance host).host
      ((session.perform host .advance).answer :: moved.1, moved.2) := rfl

theorem KeepsPace.runProgram (pace : one.KeepsPace other) {history : List Operation}
    (stays : ∀ operation ∈ history, operation.Stays) (otherHost : Host)
    (lossless : Log.Lossless (history.zip (runProgram history (.inSession one) host).1)) :
    ∃ after between reached last,
      (runProgram history (.inSession one) host).2 = (.inSession after, between) ∧
      other.movedOn (history.countP Operation.moves) otherHost =
        (Log.requests (history.zip (ArchiveTraversal.runProgram history (.inSession one) host).1),
          .inSession reached, last) ∧ after.KeepsPace reached := by
  induction history generalizing one other host otherHost with
  | nil => exact ⟨one, host, other, otherHost, rfl, rfl, pace⟩
  | cons operation rest ih =>
      have staysOn : ∀ later ∈ rest, later.Stays :=
        fun later member => stays later (List.mem_cons_of_mem _ member)
      have first := stays operation List.mem_cons_self
      have kept := lossless (operation, (one.perform host operation).answer) List.mem_cons_self
      have losslessOn : ∀ {next : Session},
          (one.perform host operation).position = .inSession next →
          Log.Lossless (rest.zip
            (runProgram rest (.inSession next) (one.perform host operation).host).1) := by
        intro next position done member
        rw [← position] at member
        exact lossless done (List.mem_cons_of_mem _ member)
      -- The other session only moves, so it waits while this one is used for anything else.
      cases moves : operation.moves with
      | false =>
          obtain ⟨⟨next, position, draws⟩, _⟩ := one.perform_draws host first moves
          obtain ⟨after, between, reached, last, ran, moved, onward⟩ :=
            ih (pace.draws draws (kept moves)) staysOn otherHost (losslessOn position)
          refine ⟨after, between, reached, last, ?_, ?_, onward⟩
          · simp only [ArchiveTraversal.runProgram, Position.perform, position, ran]
          · simp only [ArchiveTraversal.runProgram, Position.perform, position, List.zip_cons_cons,
              Log.requests, List.filter_cons, moves, List.countP_cons]
            exact moved
      | true =>
          cases operation with
          | advance =>
              have position : (one.perform host .advance).position =
                .inSession (one.advance host).session := rfl
              have same : (other.perform otherHost .advance).answer =
                  (one.perform host .advance).answer := by
                simp only [perform, stay, pace.advance_value host otherHost]
              obtain ⟨after, between, reached, last, ran, moved, onward⟩ :=
                ih (pace.advance host otherHost) staysOn (other.advance otherHost).host
                  (losslessOn position)
              refine ⟨after, between, reached, last, ran, ?_, onward⟩
              rw [List.countP_cons_of_pos moves, movedOn_succ, moved, same]
              rfl
          | _ => cases moves

theorem movedOn_past_end {session : Session} (past : session.cursor = .exhausted) (count : Nat)
    (host : Host) : (session.movedOn count host).1.filterMap Answer.member? = [] := by
  have still := (standstill_past_end past host).fixed (List.replicate count .advance) (by
    intro operation member
    rw [(List.mem_replicate.mp member).2]
    trivial)
  rw [movedOn, still, List.filterMap_map]
  simp [Function.comp_def, answerPastEnd, Answer.member?]

theorem Going.movedOn_members {session : Session} (going : session.Going)
    {members : List MemberInfo} (read : readable session.handle.headers = some members) (count : Nat) (host : Host) :
    ((session.movedOn count host).1.filterMap Answer.member?).map Header.info <+: members := by
  induction count generalizing session members host with
  | zero => exact List.nil_prefix
  | succ count ih =>
      have upcoming := going.advance_value host
      rw [readable_step, ← upcoming] at read
      rw [movedOn_succ]
      simp only [perform, stay]
      cases value : (session.advance host).value with
      | error error => simp [value] at read
      | ok moved =>
          have cursor := session.advance_cursor host
          rw [value] at cursor read
          cases moved with
          | none =>
              have ended := movedOn_past_end cursor count (session.advance host).host
              simp only [List.filterMap_cons, Answer.member?, ended, List.map_nil]
              exact List.nil_prefix
          | some header =>
              obtain ⟨others, rest, rfl⟩ := Option.map_eq_some_iff.mp read
              rw [← going.advance_headers host] at rest
              have further := ih (.inr cursor) rest (session.advance host).host
              simp only [List.filterMap_cons, Answer.member?, List.map_cons]
              exact List.cons_prefix_cons.mpr ⟨rfl, further⟩

end Session

theorem Reader.headers_of_opened {reader : Reader} {session : Session} {before host : Host}
    (opened : reader.openSession before = (.opened session, host)) :
    ∃ script, before.decoders.head? = some (some script) ∧
      session.handle.headers = script.headers := by
  obtain ⟨script, _, next, rfl⟩ := Reader.begins opened
  exact ⟨script, next, rfl⟩

theorem Reader.keepsPace_of_opened {reader another : Reader} {one other : Session}
    {before otherBefore host otherHost : Host}
    (opened : reader.openSession before = (.opened one, host))
    (openedToo : another.openSession otherBefore = (.opened other, otherHost))
    (path : another.path = reader.path)
    (script : otherBefore.decoders.head? = before.decoders.head?) : one.KeepsPace other := by
  obtain ⟨item, _, next, rfl⟩ := Reader.begins opened
  obtain ⟨itemToo, _, nextToo, rfl⟩ := Reader.begins openedToo
  rw [script, next] at nextToo
  cases nextToo
  exact ⟨path, rfl, rfl, rfl⟩

theorem Listing.readable_of_ok {path : Path} {options : ReaderOptions} {host : Host}
    {listing : Listing} (listed : (Listing.ofArchive path options host).1 = .ok listing) :
    ∃ script, host.decoders.head? = some (some script) ∧
      readable script.headers = some listing.members := by
  unfold Listing.ofArchive at listed
  cases opening : (Reader.new path options).openSession host with
  | mk result between =>
      rw [opening] at listed
      cases result with
      | refused => cases listed
      | opened session =>
          obtain ⟨script, next, headers⟩ := Reader.headers_of_opened opening
          refine ⟨script, next, ?_⟩
          rw [← headers]
          have fresh := Session.of_openSession opening
          have collected := Session.Going.collectMembers (.inl fresh) between
          dsimp only at listed
          cases all : (session.collectMembers between).value with
          | error =>
              rw [all] at listed
              cases listed
          | ok members =>
              rw [all] at listed collected
              cases listed
              exact collected.symm

/-- Two sessions over one archive come to the same members, the same end or the same failure,
whatever else is done with each of them in between, as long as the decoder does not fail at that.
Where the archive can be listed, these are the first of the members that are listed. Histories may
stop at any of their requests, so that this is about each of these. -/
theorem traversal_ignores_data {reader another : Reader} {before otherBefore host otherHost : Host}
    {one other : Session} (opened : reader.openSession before = (.opened one, host))
    (openedToo : another.openSession otherBefore = (.opened other, otherHost))
    (path : another.path = reader.path)
    (script : otherBefore.decoders.head? = before.decoders.head?)
    {history otherHistory : List Operation} (stays : ∀ operation ∈ history, operation.Stays)
    (staysToo : ∀ operation ∈ otherHistory, operation.Stays)
    (equally : otherHistory.countP Operation.moves = history.countP Operation.moves) :
    let run := runProgram history (.inSession one) host
    let otherRun := runProgram otherHistory (.inSession other) otherHost
    let log : Log := history.zip run.1
    let otherLog : Log := otherHistory.zip otherRun.1
    log.Lossless → otherLog.Lossless →
      otherLog.requests = log.requests ∧
      (∃ after otherAfter, run.2.1 = .inSession after ∧ otherRun.2.1 = .inSession otherAfter ∧
        otherAfter.entriesSeen = after.entriesSeen) ∧
      ∀ options listed listing, listed.decoders.head? = before.decoders.head? →
        (Listing.ofArchive reader.path options listed).1 = .ok listing →
        (log.requests.filterMap Answer.member?).map Header.info <+: listing.members := by
  intro run otherRun log otherLog lossless losslessToo
  have begun := Reader.keepsPace_of_opened opened openedToo path script
  -- Both runs are compared with one in which nothing but members is asked for.
  obtain ⟨after, between, reached, last, ran, moved, pace⟩ :=
    begun.runProgram stays otherHost lossless
  obtain ⟨otherAfter, otherBetween, reachedToo, lastToo, ranToo, movedToo, paceToo⟩ :=
    (Session.KeepsPace.refl other).runProgram staysToo otherHost losslessToo
  rw [equally, moved, Prod.mk.injEq, Prod.mk.injEq] at movedToo
  obtain ⟨requests, position, _⟩ := movedToo
  cases position
  refine ⟨requests.symm, ⟨after, otherAfter, congrArg Prod.fst ran, congrArg Prod.fst ranToo,
    paceToo.entriesSeen.symm.trans pace.entriesSeen⟩, ?_⟩
  intro options listed listing same succeeds
  obtain ⟨item, next, read⟩ := Listing.readable_of_ok succeeds
  obtain ⟨itemToo, nextToo, headers⟩ := Reader.headers_of_opened openedToo
  rw [same, ← script, nextToo] at next
  cases next
  rw [← headers] at read
  have first := Session.Going.movedOn_members (.inl (Session.of_openSession openedToo)) read
    (history.countP Operation.moves) otherHost
  rw [moved] at first
  exact first

/-- One session reads half of a file and copies the next chunk to a full disk, the other skips it.
Both then come to the member after it. -/
theorem traversal_past_half_read_file :
    let archive : Path := [0x78]
    let header (name : Bytes) : Header := ⟨some name, none, 4, true, 0o100644⟩
    let script : Script :=
      { headers := [
          { header := some (header [0x61]), data := [{ serving := .content [1, 2, 3, 4] }] },
          { header := some (header [0x62]) }] }
    let before : Host :=
      { decoders := [some script], tree := { entries := [(archive, .file [0])] } }
    let pairs : ReaderOptions := { chunkSize := 2 }
    let full : Operation := .copy (SinkLimits.sink { room := some 0 }) {}
    let reading : List Operation := [.read, .advance, .read, full, .advance, .advance]
    let skipping : List Operation := [.advance, .skip, .entry, .advance, .format, .advance]
    let requests (options : ReaderOptions) (history : List Operation) : List Answer :=
      let opened := (runProgram [.openSession] (.atRest (.new archive options)) before).2
      Log.requests (history.zip (runProgram history opened.1 opened.2).1)
    requests {} skipping = requests pairs reading ∧
      requests pairs reading = [.member (header [0x61]), .member (header [0x62]), .ended] := by
  intro archive header script before pairs full reading skipping requests
  let fresh (options : ReaderOptions) : Session :=
    { setup := ⟨archive, options.normalized⟩, buffer := [], handle := .ofScript 0 script }
  let host (options : ReaderOptions) := ((Reader.new archive options).openSession before).2
  have opened :
      (Reader.new archive pairs).openSession before = (.opened (fresh pairs), host pairs) :=
    Prod.ext (by cbv) rfl
  have openedToo : (Reader.new archive {}).openSession before = (.opened (fresh {}), host {}) :=
    Prod.ext (by cbv) rfl
  have stays : ∀ operation ∈ reading, operation.Stays := by
    simp [reading, full, Operation.Stays]
  have staysToo : ∀ operation ∈ skipping, operation.Stays := by
    simp [skipping, Operation.Stays]
  have answered : (runProgram reading (.inSession (fresh pairs)) (host pairs)).1 =
      [.failed (.reading archive .data .nothingSelected), .member (header [0x61]), .chunk [1, 2],
        .copied (.error (.io diskFull)) [], .member (header [0x62]), .ended] := by cbv
  have answeredToo : (runProgram skipping (.inSession (fresh {})) (host {})).1 =
      [.member (header [0x61]), .skipped, .entry (some (header [0x61])), .member (header [0x62]),
        .format none, .ended] := by cbv
  have same := (traversal_ignores_data opened openedToo rfl rfl stays staysToo (by cbv)
    (by rw [answered]; simp [Log.Lossless, reading, full, Operation.moves, Answer.losesData,
      Answer.archiveError?, ArchiveError.isLoss])
    (by rw [answeredToo]; simp [Log.Lossless, skipping, Operation.moves, Answer.losesData,
      Answer.archiveError?])).1
  have begins : (runProgram [.openSession] (.atRest (.new archive pairs)) before).2 =
      (.inSession (fresh pairs), host pairs) := by
    simp only [runProgram, Position.perform, Reader.perform, opened]
  have beginsToo : (runProgram [.openSession] (.atRest (.new archive {})) before).2 =
      (.inSession (fresh {}), host {}) := by
    simp only [runProgram, Position.perform, Reader.perform, openedToo]
  constructor
  · simp only [requests, begins, beginsToo]
    exact same
  · simp only [requests, begins, answered]
    rfl

end ArchiveTraversal
