import ArchiveTraversal.Listing
import ArchiveTraversal.Proofs.Session.Standstill

/-!
What a listing gives: the members of all headers up to the end of the archive, if each of them can
be read. Whether the archive opens, and what it lists, depends on its headers and on the way to it,
and on none of the options.
-/

namespace ArchiveTraversal

open Decoder

/-- The members that headers tell of, if all headers before the end of the archive can be read. -/
def Decoder.readable : List HeaderItem → Option (List MemberInfo)
  | [] => some []
  | item :: rest =>
      if item.reply.code = 1 then some []
      else match item.header with
        | some header =>
            if item.reply.code = 0 then (readable rest).map (header.info :: ·) else none
        | none => none

namespace Session

variable {session : Session}

theorem readable_step (session : Session) :
    readable session.handle.headers = match session.upcoming with
      | .error _ => none
      | .ok none => some []
      | .ok (some header) => (readable session.handle.headers.tail).map (header.info :: ·) := by
  unfold upcoming
  cases session.handle.headers with
  | nil => rfl
  | cons item rest =>
      by_cases ended : item.reply.code = 1
      · simp only [readable, ended, ↓reduceIte]
      · cases given : item.header with
        | none => simp only [readable, ended, given, ↓reduceIte]
        | some header =>
            by_cases fine : item.reply.code = 0
            · simp [readable, given, fine]
            · simp only [readable, ended, given, fine, ↓reduceIte]

theorem collectMembers_step (session : Session) (host : Host) :
    session.collectMembers host =
      let moved := session.advance host
      match moved.value with
      | .error error => ⟨.error error, moved.session, moved.host⟩
      | .ok none => ⟨.ok [], moved.session, moved.host⟩
      | .ok (some header) =>
          let rest := moved.session.collectMembers moved.host
          ⟨rest.value.map (header.info :: ·), rest.session, rest.host⟩ := by
  rw [collectMembers]
  dsimp only
  split
  · rename_i failed
    simp only [failed]
  · rename_i ended
    simp only [ended]
  · rename_i moved
    simp only [moved]

theorem Going.collectMembers (going : session.Going) (host : Host) :
    (session.collectMembers host).value.toOption = readable session.handle.headers := by
  fun_induction Session.collectMembers session host with
  | case1 session host moved error failed =>
      rw [readable_step, (going.advance_value host).symm.trans failed]
      rfl
  | case2 session host moved ended =>
      rw [readable_step, (going.advance_value host).symm.trans ended]
      rfl
  | case3 session host moved header taken rest ih =>
      obtain ⟨item, movedTo⟩ := movedTo_of_advance taken
      rw [readable_step, (going.advance_value host).symm.trans taken]
      dsimp only
      rw [movedTo.left, List.tail_cons, ← ih (.inr movedTo.cursor)]
      cases rest.value <;> rfl

end Session

/-- The archive at a path opens on a host, with this script behind it. -/
structure Reader.Opens (path : Path) (host : Host) (script : Script) : Prop where
  clear : obstacle host.tree path = none
  next : ∃ later, host.decoders = some script :: later
  filters : Status.warnCode ≤ script.supportFilters.code
  formats : Status.warnCode ≤ script.supportFormats.code
  opened : script.openFile.code = 0

namespace Reader

variable {path : Path} {host : Host} {script : Script}

theorem opens_of_opened {options : ReaderOptions} {session : Session} {between : Host}
    (opened : (new path options).openSession host = (.opened session, between)) :
    ∃ script, Opens path host script ∧
      session.handle = (Handle.ofScript host.allocated script).answer script.openFile ∧
      between.calls = host.calls ++
        (openingCalls options.normalized.blockSize path).map (Prod.mk host.allocated) := by
  have acquires := acquire_acquires ⟨path, options.normalized⟩ host
  unfold openSession at opened
  simp only [releaseStale, new] at opened
  generalize acquire ⟨path, options.normalized⟩ host = outcome at *
  cases acquires with
  | obstructed => cases opened
  | unavailable => cases opened
  | refused => cases opened
  | @ready script later clear decoders filters formats accepted =>
      cases opened
      refine ⟨script, ⟨clear, ⟨later, decoders⟩, filters, formats, accepted⟩, rfl, ?_⟩
      have told := Host.event_quiet
        (host.handedOut.callAll host.allocated (openingCalls options.normalized.blockSize path))
        (.opened path options.normalized.blockSize
          ((Handle.ofScript host.allocated script).answer script.openFile).filterNames)
      exact told.calls.trans (Host.calls_callAll ..)

theorem Opens.openSession (opens : Opens path host script) (options : ReaderOptions) :
    ∃ session between, (new path options).openSession host = (.opened session, between) ∧
      session.handle.headers = script.headers ∧ session.cursor = .start := by
  obtain ⟨later, next⟩ := opens.next
  have acquires := acquire_acquires ⟨path, options.normalized⟩ host
  unfold Reader.openSession
  simp only [releaseStale, new]
  generalize acquire ⟨path, options.normalized⟩ host = outcome at *
  cases acquires with
  | obstructed blocked => cases opens.clear.symm.trans blocked
  | unavailable _ nothing => exact absurd next (nothing script later)
  | refused _ decoders refuses =>
      cases next.symm.trans decoders
      cases refuses with
      | filters refused => exact absurd opens.filters (Int.not_le.mpr refused)
      | formats _ refused => exact absurd opens.formats (Int.not_le.mpr refused)
      | file _ _ refused => exact absurd opens.opened refused
  | ready _ decoders =>
      cases next.symm.trans decoders
      exact ⟨_, _, rfl, rfl, rfl⟩

theorem Opens.listing (opens : Opens path host script) {members : List MemberInfo}
    (read : readable script.headers = some members) (options : ReaderOptions) :
    ∃ listing, (Listing.ofArchive path options host).1 = .ok listing ∧
      listing.members = members := by
  obtain ⟨session, between, opened, headers, start⟩ := opens.openSession options
  have going : session.Going := .inl start
  have collected := going.collectMembers between
  rw [headers, read] at collected
  unfold Listing.ofArchive
  rw [opened]
  dsimp only
  cases value : (session.collectMembers between).value with
  | error error =>
      rw [value] at collected
      cases collected
  | ok all =>
      rw [value] at collected
      cases collected
      exact ⟨_, rfl, rfl⟩

end Reader

end ArchiveTraversal
