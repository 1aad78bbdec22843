import ArchiveTraversal.Proofs.Reader.Beginning
import ArchiveTraversal.Proofs.Session.Passage

/-!
A listing is exact. It gives the members that the headers before the end of the archive tell of, in
their order, if each of these headers can be read; and it asks the decoder for these headers and for
the end, and for nothing else. A header that cannot be read, like an archive that cannot be opened,
leaves a failure and no listing at all.
-/

namespace ArchiveTraversal

open Decoder

namespace Decoder

variable {given rest : List HeaderItem} {item : HeaderItem} {headers : List Header}

def untilEnd (items : List HeaderItem) : List HeaderItem :=
  items.takeWhile fun item => item.reply.code ≠ 1

theorem gives_of_mem (give : List.Forall₂ HeaderItem.Gives given headers) (member : item ∈ given) :
    ∃ header, item.Gives header := by
  induction give with
  | nil => cases member
  | @cons first header _ _ gives _ ih =>
      rcases List.mem_cons.mp member with rfl | later
      · exact ⟨header, gives⟩
      · exact ih later

theorem infos_given (give : List.Forall₂ HeaderItem.Gives given headers) :
    (headers.map Header.info).map some = given.map fun item => item.header.map Header.info := by
  induction give with
  | nil => rfl
  | cons gives _ ih =>
      simp only [List.map_cons, gives.2, Option.map_some]
      rw [ih]

theorem untilEnd_append (give : List.Forall₂ HeaderItem.Gives given headers) :
    untilEnd (given ++ rest) = given ++ untilEnd rest := by
  apply List.takeWhile_append_of_pos
  intro item member
  obtain ⟨header, code, _⟩ := gives_of_mem give member
  simp [code]

theorem untilEnd_of_ends (ends : ∀ item ∈ rest.head?, item.reply.code = 1) :
    untilEnd rest = [] := by
  cases rest with
  | nil => rfl
  | cons item later =>
      have code := ends item rfl
      simp [untilEnd, code]

end Decoder

namespace Session

variable {session after : Session} {host afterHost : Host} {headers : List Header}

theorem Passes.collectMembers (passes : session.Passes host headers after afterHost) :
    session.collectMembers host =
      let rest := after.collectMembers afterHost
      ⟨rest.value.map (headers.map Header.info ++ ·), rest.session, rest.host⟩ := by
  induction passes with
  | nil session host =>
      generalize session.collectMembers host = outcome
      obtain ⟨value, _, _⟩ := outcome
      cases value <;> rfl
  | @cons session after host afterHost header headers moved _ ih =>
      rw [collectMembers_step]
      simp only [moved, ih]
      cases (after.collectMembers afterHost).value <;> rfl

inductive Collects (session : Session) (host : Host) :
    Outcome (Except ArchiveError (List MemberInfo)) → Prop
  | whole {given rest : List HeaderItem} {headers : List Header} {after : Session}
      {afterHost : Host} (split : session.handle.headers = given ++ rest)
      (give : List.Forall₂ HeaderItem.Gives given headers)
      (ends : ∀ item ∈ rest.head?, item.reply.code = 1)
      (requested : session.Requested host (given.length + 1) after afterHost) :
      Collects session host ⟨.ok (headers.map Header.info), after, afterHost⟩
  | broken {given rest : List HeaderItem} {item : HeaderItem} {headers : List Header}
      {after : Session} {afterHost : Host}
      (split : session.handle.headers = given ++ item :: rest)
      (give : List.Forall₂ HeaderItem.Gives given headers) (goesOn : item.reply.code ≠ 1)
      (useless : ∀ header, ¬ item.Gives header)
      (requested : session.Requested host (given.length + 1) after afterHost) :
      Collects session host
        ⟨.error (.reading session.path .header (item.reply.diagnostic.reason item.reply.code)),
          after, afterHost⟩

theorem Going.collects (going : session.Going) (host : Host) :
    session.Collects host (session.collectMembers host) := by
  obtain ⟨passed, headers, after, afterHost, split, give, _, passes, _, requested, hears, stops⟩ :=
    going.searches (fun _ => False) host
  rw [passes.collectMembers, collectMembers_step]
  generalize after.advance afterHost = moved at *
  obtain ⟨value, last, lastHost⟩ := moved
  generalize after.handle.headers = left at *
  cases hears with
  | member => exact (stops _ rfl).elim
  | ended ends =>
      simp only [Except.map, List.append_nil]
      exact .whole split give ends requested
  | broken goesOn useless => exact .broken split give goesOn useless requested

end Session

namespace Decoder.Handle

theorem filterNames_eq (handle : Handle) :
    handle.filterNames =
      ((handle.filters.take ((handle.script.filterCount.map Int.toNat).getD handle.filters.length)
        ).reduceOption.map Text.Utf8.decodeLossy).filter (· ≠ "none") := by
  have count : handle.filterCount =
      (handle.script.filterCount.map Int.toNat).getD handle.filters.length := by
    unfold filterCount
    cases handle.script.filterCount <;> rfl
  rw [filterNames, count, List.reduceOption, List.map_filterMap]
  rfl

end Decoder.Handle

namespace Listing

theorem total_eq_sum (members : List MemberInfo) :
    total members = (members.map fun member => max member.size 0).sum := by
  induction members with
  | nil => rfl
  | cons member rest ih => rw [total, ih, List.map_cons, List.sum_cons]

/-- What comes of listing an archive. The handle that a listing is taken from has been asked for the
headers up to the end. -/
inductive Lists (path : Path) (options : ReaderOptions) (host : Host) :
    Except ArchiveError Listing × Host → Prop
  | refused {reason : Reason} {after : Host} {passed : List OpeningStep} {failing : OpeningStep}
      (shut : ∀ script, ¬ Reader.Opens path host script)
      (first : OpeningStep.FirstFailure (OpeningStep.course host.tree path
        options.normalized.blockSize host.decoders.head?.join) passed failing reason)
      (called : host.Makes host.allocated
        (OpeningStep.calls (passed ++ [failing]) ++ OpeningStep.cleanup passed) after) :
      Lists path options host (.error (.opening path reason), after)
  | listed {script : Script} {given rest : List HeaderItem} {headers : List Header}
      {session : Session} {after : Host} (opens : Reader.Opens path host script)
      (split : script.headers = given ++ rest)
      (give : List.Forall₂ HeaderItem.Gives given headers)
      (ends : ∀ item ∈ rest.head?, item.reply.code = 1)
      (asked : (Handle.ofScript host.allocated script).Asked (given.length + 1) session.handle)
      (called : host.Makes host.allocated (lifeCalls options.normalized.blockSize path
        (List.replicate (given.length + 1) .nextHeader)) after) :
      Lists path options host (.ok (ofSession session (headers.map Header.info)), after)
  | broken {script : Script} {given rest : List HeaderItem} {item : HeaderItem}
      {headers : List Header} {after : Host} (opens : Reader.Opens path host script)
      (split : script.headers = given ++ item :: rest)
      (give : List.Forall₂ HeaderItem.Gives given headers) (goesOn : item.reply.code ≠ 1)
      (useless : ∀ header, ¬ item.Gives header)
      (called : host.Makes host.allocated (lifeCalls options.normalized.blockSize path
        (List.replicate (given.length + 1) .nextHeader)) after) :
      Lists path options host
        (.error (.reading path .header (item.reply.diagnostic.reason item.reply.code)), after)

theorem ofArchive_lists (path : Path) (options : ReaderOptions) (host : Host) :
    Lists path options host (ofArchive path options host) := by
  have begins := Reader.openSession_begins path options host
  unfold ofArchive
  generalize (Reader.new path options).openSession host = outcome at *
  cases begins with
  | refused shut first called => exact .refused shut first called
  | @opened script session between opens setup handle start called =>
      have number : session.handle.number = host.allocated := by rw [handle]; rfl
      have headers : session.handle.headers = script.headers := by rw [handle]; rfl
      have own : session.path = path := by rw [Session.path, setup]
      have collects := Session.Going.collects (.inl start) between
      dsimp only
      generalize session.collectMembers between = collected at *
      cases collects with
      | @whole given _ _ _ _ split give ends requested =>
          have asked := session.handle.asked_after (given.length + 1)
          rw [← requested.handle, handle] at asked
          have made := requested.calls
          rw [number] at made
          rw [headers] at split
          exact .listed opens split give ends
            ⟨asked.script, asked.headers, asked.format, asked.filters⟩
            (Session.makes_life (requested.number.trans number) (called.trans made))
      | broken split give goesOn useless requested =>
          have made := requested.calls
          rw [number] at made
          rw [headers] at split
          rw [own]
          exact .broken opens split give goesOn useless
            (Session.makes_life (requested.number.trans number) (called.trans made))

end Listing

/-- A listing is given just if the archive opens and every header before its end is one of a member.
It gives these members in their order; their sizes add up to its total, those below zero as nothing;
and its format and filters are what the decoder has last told of them when it has come to the end,
less the filters that have no name or do nothing, or are beyond the number of those in use. The
decoder is asked for one header more than there are members. Otherwise the failure is that of the
step of opening, or of the header, that is the first to fail, and it is told of at once. In no case
is the decoder asked for data or told to skip any, and it is always freed, and but once. -/
theorem listing_exact (path : Path) (options : ReaderOptions) (host : Host) :
    let result := Listing.ofArchive path options host
    let blockSize := if options.blockSize = 0 then defaultBlockSize else options.blockSize
    let decoder := host.decoders.head?.join
    let asking (count : Nat) :=
      [.allocate, .supportFilters, .supportFormats, .openFile blockSize path] ++
        List.replicate count .nextHeader ++ [.free]
    ((∃ listing, result.1 = .ok listing) ↔ ∃ script, Reader.Opens path host script ∧
      ∀ item ∈ untilEnd script.headers, ∃ header, item.Gives header) ∧
    (∀ listing, result.1 = .ok listing → ∃ script, Reader.Opens path host script ∧
      let given := untilEnd script.headers
      let heard := script.headers.take (given.length + 1)
      let names := latest HeaderItem.filters script.filters heard
      let used := (script.filterCount.map Int.toNat).getD names.length
      listing.members.map some = given.map (fun item => item.header.map Header.info) ∧
      listing.totalSize = (listing.members.map fun member => max member.size 0).sum ∧
      listing.format =
        (latest HeaderItem.format script.format heard).map Text.Utf8.decodeLossy ∧
      listing.filters =
        ((names.take used).reduceOption.map Text.Utf8.decodeLossy).filter (· ≠ "none") ∧
      host.Makes host.allocated (asking (given.length + 1)) result.2) ∧
    (∀ error, result.1 = .error error →
      (∃ passed failing reason, OpeningStep.FirstFailure
          (OpeningStep.course host.tree path blockSize decoder) passed failing reason ∧
        error = .opening path reason ∧ host.Makes host.allocated
          (OpeningStep.calls (passed ++ [failing]) ++ OpeningStep.cleanup passed) result.2) ∨
      ∃ script given item rest, Reader.Opens path host script ∧
        script.headers = given ++ item :: rest ∧
        (∀ earlier ∈ given, ∃ header, earlier.Gives header) ∧ item.reply.code ≠ 1 ∧
        (∀ header, ¬ item.Gives header) ∧
        error = .reading path .header (item.reply.diagnostic.reason item.reply.code) ∧
        host.Makes host.allocated (asking (given.length + 1)) result.2) ∧
    ∃ calls, host.Makes host.allocated calls result.2 ∧ FreesOnce decoder calls ∧ .skipData ∉ calls ∧
      ∀ capacity, .readData capacity ∉ calls := by
  intro result blockSize decoder asking
  -- However the listing ends, nothing but headers has been asked for in between.
  have quiet {script : Script} (opens : Reader.Opens path host script) (count : Nat) :
      FreesOnce decoder (asking count) ∧ .skipData ∉ asking count ∧
        ∀ capacity, .readData capacity ∉ asking count := by
    have unasked (call : Call) (other : call ≠ .nextHeader) :
        call ∉ List.replicate count Call.nextHeader := by simp [List.mem_replicate, other]
    refine ⟨opens.frees_once blockSize (unasked .free (by simp)), ?_, fun capacity => ?_⟩
    · simp [asking, unasked]
    · simp [asking, unasked]
  have lists : Listing.Lists path options host result := Listing.ofArchive_lists path options host
  generalize result = outcome at *
  cases lists with
  | @refused reason after passed failing shut first called =>
      refine ⟨⟨by simp, fun ⟨script, opens, _⟩ => absurd opens (shut script)⟩, by simp, ?_,
        _, called, first.frees_once, first.silent⟩
      rintro _ ⟨⟩
      exact .inl ⟨passed, failing, reason, first, rfl, called⟩
  | @listed script given rest headers session after opens split give ends asked called =>
      have whole : untilEnd script.headers = given := by
        rw [split, untilEnd_append give, untilEnd_of_ends ends, List.append_nil]
      refine ⟨⟨fun _ => ⟨script, opens, fun item member => ?_⟩, fun _ => ⟨_, rfl⟩⟩, ?_, by simp,
        _, called, quiet opens _⟩
      · rw [whole] at member
        exact gives_of_mem give member
      · rintro _ ⟨⟩
        refine ⟨script, opens, ?_⟩
        dsimp only [Listing.ofSession]
        rw [whole, Session.formatName, Session.filters, Handle.formatName, Handle.filterNames_eq,
          asked.script, asked.format, asked.filters]
        exact ⟨infos_given give, Listing.total_eq_sum _, rfl, rfl, called⟩
  | @broken script given rest item headers after opens split give goesOn useless called =>
      refine ⟨⟨by simp, fun ⟨other, opensToo, all⟩ => ?_⟩, by simp, ?_, _, called, quiet opens _⟩
      · cases opens.unique opensToo
        have early : item ∈ untilEnd script.headers := by
          rw [split, untilEnd_append give]
          simp [untilEnd, goesOn]
        obtain ⟨header, gives⟩ := all item early
        exact absurd gives (useless header)
      · rintro _ ⟨⟩
        exact .inr ⟨script, given, item, rest, opens, split,
          fun earlier member => gives_of_mem give member, goesOn, useless, rfl, called⟩

/-- Of two members one has a size below zero. The format is told with the second of them, and the
filters with the end: one of these has no name, one does nothing, and there are fewer of them than
the decoder claims. What comes after the end is not asked for. -/
theorem listing_of_two_members :
    let archive : Path := [0x78]
    let first : Header := ⟨some [0x61], none, 3, true, 0o100644⟩
    let second : Header := ⟨none, some [0x62], -1, true, 0o40755⟩
    let script : Script :=
      { filterCount := some 9
        headers := [{ header := some first },
          { header := some second, format := some (some [0x7a, 0x69, 0x70]) },
          { reply := { code := 1 }
            filters := some [some [0x78, 0x7a], none, some [0x6e, 0x6f, 0x6e, 0x65]] },
          { header := some first }] }
    let host : Host :=
      { decoders := [some script], tree := { entries := [(archive, .file [0])] } }
    let result := Listing.ofArchive archive {} host
    result.1 = .ok
        { format := some "zip", filters := ["xz"], totalSize := 3,
          members := [⟨"a", 3, .file⟩, ⟨"b", -1, .directory⟩] } ∧
      result.2.calls = ([.allocate, .supportFilters, .supportFormats, .openFile 10240 archive,
        .nextHeader, .nextHeader, .nextHeader, .free] : List Call).map (Prod.mk 0) := by
  intro archive first second script host result
  have opens : Reader.Opens archive host script :=
    ⟨by cbv, ⟨[], rfl⟩, by decide, by decide, rfl⟩
  obtain ⟨can, listed, -⟩ := listing_exact archive {} host
  have given : ∀ item ∈ untilEnd script.headers, ∃ header, item.Gives header := by
    have two : untilEnd script.headers = script.headers.take 2 := by decide
    rw [two]
    rintro item (_ | ⟨_, _ | ⟨_, ⟨⟩⟩⟩)
    · exact ⟨first, rfl, rfl⟩
    · exact ⟨second, rfl, rfl⟩
  obtain ⟨listing, ok⟩ := can.mpr ⟨script, opens, given⟩
  obtain ⟨_, opensToo, members, total, format, filters, calls⟩ := listed listing ok
  cases opens.unique opensToo
  have all : listing.members = [⟨"a", 3, .file⟩, ⟨"b", -1, .directory⟩] := by
    apply List.map_injective_iff.mpr (Option.some_injective MemberInfo)
    rw [members]
    cbv
  refine ⟨ok.trans (congrArg Except.ok ?_), calls⟩
  obtain ⟨_, _, _, _⟩ := listing
  dsimp only at all total format filters
  rw [all] at total
  rw [format, filters, all, total]
  cbv

end ArchiveTraversal
