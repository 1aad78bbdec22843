import ArchiveTraversal.Proofs.Journal.Capacity
import ArchiveTraversal.Proofs.Options
import ArchiveTraversal.Proofs.Session.Arrival

/-!
The size of chunks is of no account. What is had of a plain archive is the same however large the
chunks are in which it is read, whether members are drained, copied, listed or unpacked; and the
size that is set is the one that is read in.
-/

namespace ArchiveTraversal

open Decoder

theorem Decoder.LeadsTo.mem {headers : List HeaderItem} {index : Nat} {item : HeaderItem}
    {header : Header} (leads : LeadsTo headers index item header) : item ∈ headers := by
  induction leads with
  | next => exact List.mem_cons_self
  | later _ _ _ ih => exact List.mem_cons_of_mem _ ih

theorem Session.Kindred.yields {one other : Session} (kindred : one.Kindred other)
    (plain : ∀ item ∈ one.handle.data, item.Plain) :
    other.yield = one.yield ∧ other.failure? = one.failure? :=
  yields_congr kindred.path kindred.current kindred.data (served_of_plain plain ..)

section

variable {path : Path} {host after otherAfter : Host} {script : Script}
  {later : List (Option Script)} {options other : ReaderOptions} {index : Nat}
  {session twin : Session}

theorem Arrives.plain (arrives : Arrives path options host index session after)
    (decoders : host.decoders = some script :: later) (plain : script.Plain) :
    ∀ item ∈ session.handle.data, item.Plain := by
  obtain ⟨_, item, _, opens, leads, stands⟩ := arrives.standsOn
  obtain ⟨_, next⟩ := opens.next
  cases decoders.symm.trans next
  rw [stands.data]
  exact plain item leads.mem

theorem Arrives.positive (arrives : Arrives path options host index session after) :
    0 < session.setup.options.chunkSize := by
  rw [arrives.onMember.1]
  exact options.chunkSize_normalized_pos

theorem Arrives.drained (arrives : Arrives path options host index session after)
    (arrivesToo : Arrives path other host index twin otherAfter)
    (decoders : host.decoders = some script :: later) (plain : script.Plain) :
    (twin.drain otherAfter).value.1.flatten = (session.drain after).value.1.flatten ∧
      (twin.drain otherAfter).value.2 = (session.drain after).value.2 := by
  obtain ⟨yields, fails⟩ := (arrives.kindred arrivesToo).yields (arrives.plain decoders plain)
  obtain ⟨drained, failed⟩ :=
    Session.drain_yields arrives.onMember.2 arrives.positive after
  obtain ⟨drainedToo, failedToo⟩ :=
    Session.drain_yields arrivesToo.onMember.2 arrivesToo.positive otherAfter
  rw [drained, failed, drainedToo, failedToo]
  exact ⟨yields, fails⟩

theorem Arrives.copied (arrives : Arrives path options host index session after)
    (arrivesToo : Arrives path other host index twin otherAfter)
    (decoders : host.decoders = some script :: later) (plain : script.Plain) {State : Type}
    {sink : Sink State} {room : State → Option Nat} {refusal : IoError}
    (hasRoom : sink.HasRoom room refusal) (state : State) :
    let copied := session.copyTo sink.recording (state, []) after
    let copiedToo := twin.copyTo sink.recording (state, []) otherAfter
    copiedToo.value.1 = copied.value.1 ∧
      copiedToo.value.2.2.reverse.flatten = copied.value.2.2.reverse.flatten := by
  obtain ⟨yields, fails⟩ := (arrives.kindred arrivesToo).yields (arrives.plain decoders plain)
  have copied := Session.copyTo_delivers arrives.onMember.2 arrives.positive hasRoom state after
  have copiedToo := Session.copyTo_delivers arrivesToo.onMember.2 arrivesToo.positive hasRoom state
    otherAfter
  rw [yields, fails] at copiedToo
  exact Prod.mk.inj (copiedToo.trans copied.symm)

end

/-- The options of a reader are of no account to what it reads from a plain archive. A member that a
session comes to with some options it comes to with any; draining the member gives the same bytes
and the same failure, and so does copying it to a sink that has room for some number of bytes or for
all. The archive is listed alike. It is unpacked alike, too: with no limit the result, the tree and
the reports are the same; with a limit they are, or both runs exceed the limit at one member, after
the same reports, and only the totals at which they do and the content of one file may be different.
All the while, data is asked for in the size that is set, which is never zero, and no chunk is
larger. -/
theorem chunkSize_immaterial (path : Path) (host : Host) (script : Script)
    (later : List (Option Script)) (decoders : host.decoders = some script :: later)
    (plain : script.Plain) (options other : ReaderOptions) :
    (∀ index session after, Arrives path options host index session after →
      (∃ twin otherAfter, Arrives path other host index twin otherAfter) ∧
      ∀ twin otherAfter, Arrives path other host index twin otherAfter →
        (twin.drain otherAfter).value.1.flatten = (session.drain after).value.1.flatten ∧
        (twin.drain otherAfter).value.2 = (session.drain after).value.2 ∧
        ∀ (State : Type) (sink : Sink State) (room : State → Option Nat) (refusal : IoError),
          sink.HasRoom room refusal → ∀ state,
            let copied := session.copyTo sink.recording (state, []) after
            let copiedToo := twin.copyTo sink.recording (state, []) otherAfter
            copiedToo.value.1 = copied.value.1 ∧
              copiedToo.value.2.2.reverse.flatten = copied.value.2.2.reverse.flatten) ∧
    (Listing.ofArchive path other host).1 = (Listing.ofArchive path options host).1 ∧
    (∀ output limit observer,
      (unpackVisits path output ⟨limit, other⟩ observer host).map Visit.info =
          (unpackVisits path output ⟨limit, options⟩ observer host).map Visit.info ∧
        EndsAlike limit (unpackArchive path output ⟨limit, options⟩ observer host)
          (unpackArchive path output ⟨limit, other⟩ observer host)) ∧
    let size := options.normalized.chunkSize
    0 < size ∧
    (∀ operations,
      let run := runProgram operations (.atRest (.new path options)) host
      host.Asks size (run.2.1.finish run.2.2) ∧
        ∀ answer ∈ run.1, ∀ chunk ∈ answer.chunks, chunk.length ≤ size) ∧
    host.Asks size (Listing.ofArchive path options host).2 ∧
    ∀ output limit observer,
      host.Asks size (unpackArchive path output ⟨limit, options⟩ observer host).2 ∧
        ∀ visit ∈ unpackVisits path output ⟨limit, options⟩ observer host,
          ∀ write ∈ (UnpackJob.mk output limit observer).writesOf visit, write.size ≤ size := by
  refine ⟨fun index session after arrives => ⟨arrives.withOptions other, ?_⟩,
    Listing.ofArchive_options path options other host, fun output limit observer => ?_,
    options.chunkSize_normalized_pos, fun operations => ?_, Listing.ofArchive_asks ..,
    fun output limit observer => ?_⟩
  · intro twin otherAfter arrivesToo
    obtain ⟨bytes, failure⟩ := arrives.drained arrivesToo decoders plain
    exact ⟨bytes, failure, fun State sink room refusal hasRoom state =>
      arrives.copied arrivesToo decoders plain hasRoom state⟩
  · obtain ⟨visits, ran, unpacks, infos, alike⟩ :=
      (unpackArchive_unpacks path output ⟨limit, options⟩ observer host).recut decoders plain other
    obtain ⟨rfl, rfl⟩ := unpacks.eq
    exact ⟨infos, alike⟩
  · exact runProgram_asks operations (.atRest (.new path options)) host
  · exact (unpackArchive_unpacks path output ⟨limit, options⟩ observer host).asks

/-- Five bytes are read two at a time, and all at once. A limit of three is exceeded either way, but
the totals are not the same. -/
theorem five_bytes_recut :
    let archive : Path := [0x78]
    let output : Path := [0x6F]
    let header : Header := ⟨some [0x61], none, 5, true, 0o100644⟩
    let script : Script :=
      { headers := [{ header := some header, data := [{ serving := .content [1, 2, 3, 4, 5] }] }] }
    let host : Host :=
      { decoders := [some script], tree := { entries := [(archive, .file [0])] } }
    let pairs : ReaderOptions := { chunkSize := 2 }
    let all : ReaderOptions := { chunkSize := 0 }
    let unpacked (limit : Option Nat) (options : ReaderOptions) :=
      unpackArchive archive output ⟨limit, options⟩ (fun _ _ _ => {}) host
    (unpacked (some 3) pairs).1 = .error (.sizeLimitExceeded 4 3) ∧
      (unpacked (some 3) all).1 = .error (.sizeLimitExceeded 5 3) ∧
      EndsAlike (some 3) (unpacked (some 3) pairs) (unpacked (some 3) all) ∧
      (unpacked none pairs).1 = .ok { files := 1, bytes := 5 } ∧
      EndsAlike none (unpacked none pairs) (unpacked none all) := by
  intro archive output header script host pairs all unpacked
  have plain : script.Plain := by
    intro item member
    rw [List.mem_singleton.mp member]
    intro piece there
    rw [List.mem_singleton.mp there]
    trivial
  obtain ⟨_, _, alike, _⟩ := chunkSize_immaterial archive host script [] rfl plain pairs all
  exact ⟨by cbv, by cbv, (alike output (some 3) _).2, by cbv, (alike output none _).2⟩

end ArchiveTraversal
