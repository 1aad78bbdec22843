import ArchiveTraversal.Proofs.Listing
import ArchiveTraversal.Proofs.Unpack.Recut

/-!
What the options of a reader do not matter to. An archive opens with any of them, or fails to open
with the same failure, and it is listed alike. A plain archive is unpacked alike.
-/

namespace ArchiveTraversal

open Decoder

namespace Session

/-- Two sessions that only their options can tell apart. -/
structure Level (one other : Session) : Prop where
  path : other.path = one.path
  handle : other.handle = one.handle
  cursor : other.cursor = one.cursor

variable {one other : Session}

theorem Level.advance (level : one.Level other) (host otherHost : Host) :
    (other.advance otherHost).value = (one.advance host).value ∧
      (one.advance host).session.Level (other.advance otherHost).session := by
  unfold Session.advance
  rw [level.cursor, level.handle]
  cases cursor : one.cursor with
  | exhausted => exact ⟨rfl, level⟩
  | failed => exact ⟨by simp only [readError, level.path], level⟩
  | _ =>
      simp only
      split
      · exact ⟨rfl, level.path, rfl, rfl⟩
      · exact ⟨rfl, level.path, rfl, rfl⟩
      · exact ⟨by simp only [readError, level.path], level.path, rfl, rfl⟩

theorem Level.collectMembers (level : one.Level other) (host otherHost : Host) :
    (other.collectMembers otherHost).value = (one.collectMembers host).value ∧
      (one.collectMembers host).session.Level (other.collectMembers otherHost).session := by
  fun_induction Session.collectMembers one host generalizing other otherHost with
  | case1 one host moved error =>
      rename_i failed
      obtain ⟨value, further⟩ := level.advance host otherHost
      rw [collectMembers_step]
      simp only [value.trans failed]
      exact ⟨trivial, further⟩
  | case2 one host moved =>
      rename_i ended
      obtain ⟨value, further⟩ := level.advance host otherHost
      rw [collectMembers_step]
      simp only [value.trans ended]
      exact ⟨trivial, further⟩
  | case3 one host moved header taken rest =>
      rename_i ih
      obtain ⟨value, further⟩ := level.advance host otherHost
      obtain ⟨listed, last⟩ := ih further (other.advance otherHost).host
      rw [collectMembers_step]
      simp only [value.trans taken]
      exact ⟨congrArg _ listed, last⟩

end Session

namespace Reader

theorem prepare_options (setup other : Setup) (handle : Handle) (host otherHost : Host) :
    (prepare other handle otherHost).1 = (prepare setup handle host).1 := by
  by_cases filters : Status.warnCode ≤ handle.script.supportFilters.code
  · by_cases formats : Status.warnCode ≤ handle.script.supportFormats.code
    · by_cases file : Status.ofCode handle.script.openFile.code = .ok
      · simp [prepare, attempt, Handle.answer, filters, formats, file]
      · simp [prepare, attempt, Handle.answer, filters, formats, file]
    · simp [prepare, attempt, Handle.answer, filters, formats]
  · simp [prepare, attempt, Handle.answer, filters]

theorem acquire_options (path : Path) (options other : ReaderOptions) (host : Host) :
    (acquire ⟨path, other⟩ host).1 = (acquire ⟨path, options⟩ host).1 := by
  unfold acquire
  dsimp only
  split
  · rfl
  · split
    · rfl
    · exact prepare_options ..

/-- Two ways for an archive to open, or to be refused, that come to the same. -/
inductive OpensAlike (options other : ReaderOptions) : Opening × Host → Opening × Host → Prop
  | refused {error : ArchiveError} {reader otherReader : Reader} {host otherHost : Host}
      (concurs : host.Concurs otherHost) :
      OpensAlike options other (.refused error reader, host) (.refused error otherReader, otherHost)
  | opened {session twin : Session} {host otherHost : Host} (level : session.Level twin)
      (start : session.cursor = .start) (chunkSize : session.setup.options = options.normalized)
      (chunkSizeToo : twin.setup.options = other.normalized) (concurs : host.Concurs otherHost) :
      OpensAlike options other (.opened session, host) (.opened twin, otherHost)

theorem openSession_alike (path : Path) (options other : ReaderOptions) (host : Host) :
    OpensAlike options other ((new path options).openSession host)
      ((new path other).openSession host) := by
  have concurs : ((new path options).openSession host).2.Concurs
      ((new path other).openSession host).2 := by
    have same : host.Concurs host := ⟨⟨rfl, rfl⟩, rfl⟩
    refine same.of_murmurs ⟨?_, ?_⟩ (openSession_murmurs ..) (openSession_murmurs ..)
    · rw [openSession_tree, openSession_tree]
    · rw [openSession_cancelled, openSession_cancelled]
  have acquired := acquire_options path options.normalized other.normalized host
  unfold openSession at concurs ⊢
  simp only [releaseStale, new] at concurs ⊢
  generalize acquire ⟨path, options.normalized⟩ host = outcome at *
  generalize acquire ⟨path, other.normalized⟩ host = outcomeToo at *
  obtain ⟨result, after⟩ := outcome
  obtain ⟨_, afterToo⟩ := outcomeToo
  cases acquired
  cases result with
  | error reason => exact .refused concurs
  | ok handle => exact .opened ⟨rfl, rfl, rfl⟩ rfl rfl rfl concurs

end Reader

theorem Listing.ofArchive_options (path : Path) (options other : ReaderOptions) (host : Host) :
    (Listing.ofArchive path other host).1 = (Listing.ofArchive path options host).1 := by
  have alike := Reader.openSession_alike path options other host
  unfold Listing.ofArchive
  generalize (Reader.new path options).openSession host = opening at *
  generalize (Reader.new path other).openSession host = openingToo at *
  cases alike with
  | refused => rfl
  | @opened session twin host otherHost level =>
      obtain ⟨listed, last⟩ := level.collectMembers host otherHost
      dsimp only
      rw [listed]
      congr 1
      funext members
      simp only [ofSession, Session.formatName, Session.filters, last.handle]

def Decoder.Script.Plain (script : Script) : Prop :=
  ∀ item ∈ script.headers, ∀ piece ∈ item.data, piece.Plain

theorem Host.Concurs.close {one other : Host} (concurs : one.Concurs other)
    (session twin : Session) : (session.close one).2.2.Concurs (twin.close other).2.2 :=
  concurs.of_murmurs ⟨concurs.tree, concurs.flag⟩ (session.close_murmurs one)
    (twin.close_murmurs other)

theorem EndsAlike.close {limit : Option Nat} {final last : Outcome (Except UnpackError Tally)}
    (alike : EndsAlike limit final.result last.result) :
    EndsAlike limit (final.value, (final.session.close final.host).2.2)
      (last.value, (last.session.close last.host).2.2) := by
  obtain ⟨value, session, host⟩ := final
  obtain ⟨valueToo, twin, hostToo⟩ := last
  unfold Outcome.result at alike
  cases alike with
  | same concurs => exact .same (concurs.close session twin)
  | exceeded limited reports held heldToo =>
      refine .exceeded limited ?_ held heldToo
      rw [(twin.close_murmurs hostToo).reports, (session.close_murmurs host).reports, reports]

theorem Unpacks.recut {path output : Path} {limit : Option Nat} {options : ReaderOptions}
    {observer : Observer} {host : Host} {visits : List Visit}
    {result : Except UnpackError Tally × Host} {script : Script} {later : List (Option Script)}
    (unpacks : Unpacks path output ⟨limit, options⟩ observer host visits result)
    (decoders : host.decoders = some script :: later) (plain : script.Plain)
    (other : ReaderOptions) :
    ∃ visitsToo resultToo, Unpacks path output ⟨limit, other⟩ observer host visitsToo resultToo ∧
      visitsToo.map Visit.info = visits.map Visit.info ∧ EndsAlike limit result resultToo := by
  have alike := Reader.openSession_alike path options other host
  cases unpacks with
  | refused refused =>
      rw [refused] at alike
      generalize opening : (Reader.new path other).openSession host = outcome at alike
      cases alike with
      | refused concurs => exact ⟨[], _, .refused opening, rfl, .same concurs⟩
  | @obstructed session between error made opened making =>
      rw [opened] at alike
      generalize opening : (Reader.new path other).openSession host = outcome at alike
      cases alike with
      | @opened _ twin _ otherHost _ _ _ _ concurs =>
          have makingToo : otherHost.tree.makeDirectories output = (.error error, made) := by
            rw [concurs.tree, making]
          have after : { between with tree := made }.Concurs { otherHost with tree := made } :=
            ⟨⟨rfl, concurs.flag⟩, concurs.reports⟩
          exact ⟨[], _, .obstructed opening makingToo, rfl, .same (after.close session twin)⟩
  | @ran session between made _ final opened making goes =>
      obtain ⟨_, _, decodersToo, headers, _⟩ := Reader.openSession_opened opened
      cases decoders.symm.trans decodersToo
      rw [opened] at alike
      generalize opening : (Reader.new path other).openSession host = outcome at alike
      cases alike with
      | @opened _ twin _ otherHost level start chunkSize chunkSizeToo concurs =>
          have makingToo : otherHost.tree.makeDirectories output = (.ok (), made) := by
            rw [concurs.tree, making]
          have after : { between with tree := made }.Concurs { otherHost with tree := made } :=
            ⟨⟨rfl, concurs.flag⟩, concurs.reports⟩
          -- Both sessions begin with all headers of the one script.
          have twins : UnpackJob.Twins session twin :=
            { path := level.path
              number := by rw [level.handle]
              going := .inl start
              goingToo := .inl (level.cursor.trans start)
              headers := by rw [level.handle]
              positive := by rw [chunkSize]; exact options.chunkSize_normalized_pos
              positiveToo := by rw [chunkSizeToo]; exact other.chunkSize_normalized_pos
              plain := by rw [headers]; exact plain }
          obtain ⟨visitsToo, last, goesToo, infos, ends⟩ := goes.recut twins after
          exact ⟨visitsToo, _, .ran opening makingToo goesToo, infos, ends.close⟩

end ArchiveTraversal
