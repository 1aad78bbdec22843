import ArchiveTraversal.Proofs.Listing.Exactness
import ArchiveTraversal.Proofs.Session.Rounds
import ArchiveTraversal.Proofs.Unpack.Faults
import ArchiveTraversal.Proofs.Unpack.Transfers

/-!
No run goes on for ever. A run asks for headers one after the other, at most once for each that
there is and once for the end; and in each of these rounds it asks for data at most once for each
byte and each piece of data of the member, and once more. The same bounds every single walk through
the data of a member, whatever has been done before it.
-/

namespace ArchiveTraversal

open Decoder

namespace Decoder

/-- Rounds of calls, each of which begins with a request for a header, and goes on with so many
requests for data. -/
def rounds (capacity : Nat) (reads : List Nat) : List Call :=
  reads.flatMap fun count => .nextHeader :: List.replicate count (.readData capacity)

/-- How often the data that comes with a header may be asked for: once for each byte, once for each
piece, and once more. -/
def HeaderItem.allowance (item : HeaderItem) : Nat := dataSize item.data + item.data.length + 1

/-- There are at most so many rounds as there are headers, and one for the end, and each is within
the allowance of its header. -/
structure Allows (headers : List HeaderItem) (reads : List Nat) : Prop where
  rounds : reads.length ≤ headers.length + 1
  data : ∀ (index count : Nat), reads[index]? = some count →
    count ≤ ((headers[index]?).map HeaderItem.allowance).getD 0

theorem weight_lt_allowance (item : HeaderItem) : dataWeight item.data < item.allowance :=
  Nat.lt_succ_of_le (dataWeight_le item.data)

theorem Allows.nil (headers : List HeaderItem) : Allows headers [] :=
  ⟨Nat.zero_le _, by simp⟩

theorem Allows.cons {item : HeaderItem} {rest : List HeaderItem} {count : Nat} {reads : List Nat}
    (most : count ≤ item.allowance) (allows : Allows rest reads) :
    Allows (item :: rest) (count :: reads) := by
  constructor
  · exact Nat.succ_le_succ allows.rounds
  · intro index asked there
    cases index with
    | zero =>
        cases there
        exact most
    | succ index => exact allows.data index asked there

theorem Allows.last (headers : List HeaderItem) : Allows headers [0] := by
  constructor
  · exact Nat.succ_le_succ (Nat.zero_le _)
  · intro index count there
    cases index with
    | zero =>
        cases there
        exact Nat.zero_le _
    | succ index => cases there

theorem Allows.idle {headers : List HeaderItem} {count : Nat} (most : count ≤ headers.length + 1) :
    Allows headers (List.replicate count 0) := by
  constructor
  · rw [List.length_replicate]
    exact most
  · intro index asked there
    have none := List.eq_of_mem_replicate (List.mem_of_getElem? there)
    rw [none]
    exact Nat.zero_le _

theorem rounds_cons (capacity count : Nat) (reads : List Nat) :
    rounds capacity (count :: reads) =
      .nextHeader :: List.replicate count (.readData capacity) ++ rounds capacity reads :=
  List.flatMap_cons ..

theorem rounds_idle (capacity count : Nat) :
    rounds capacity (List.replicate count 0) = List.replicate count .nextHeader := by
  induction count with
  | zero => rfl
  | succ count ih =>
      rw [List.replicate_succ, List.replicate_succ, ← ih]
      rfl

theorem traverses_of_rounds {capacity : Nat} {reads : List Nat} {call : Call}
    (member : call ∈ rounds capacity reads) : call.traverses = true := by
  obtain ⟨count, _, made⟩ := List.mem_flatMap.mp member
  rcases List.mem_cons.mp made with rfl | asked
  · rfl
  · rw [List.eq_of_mem_replicate asked]
    rfl

theorem filter_lifeCalls (blockSize : Nat) (path : Path) {used : List Call}
    (traversal : ∀ call ∈ used, call.traverses = true) :
    (lifeCalls blockSize path used).filter Call.traverses = used := by
  rw [lifeCalls, List.filter_append, List.filter_append, List.filter_eq_self.mpr traversal]
  exact List.append_nil _

theorem Handle.readData_weight_le (handle : Handle) (capacity : Nat) :
    (handle.readData capacity).2.weight ≤ handle.weight := by
  have serves := handle.readData_serves capacity
  generalize handle.readData capacity = read at *
  cases serves with
  | nothing => exact Nat.le_refl _
  | raw left => simp [weight, left, dataWeight]
  | whole left => simp [weight, left, dataWeight]
  | part left serving => simp [weight, left, dataWeight, DataItem.weight, serving]

end Decoder

namespace UnpackJob

variable {job : UnpackJob} {visit : Visit} {tally : Tally} {session : Session} {host : Host}

theorem fillFile_reads (job : UnpackJob) (name : String) (location : Location) (tally : Tally)
    (session : Session) (host : Host) :
    ∃ count, host.Makes session.handle.number
        (List.replicate count (.readData session.setup.options.chunkSize))
        (job.fillFile name location tally session host).host ∧
      count ≤ session.handle.weight + 1 := by
  obtain ⟨count, made, most, _⟩ :=
    Session.forEachChunk_calls job.writer { total := tally.bytes } session host
  refine ⟨count, ?_, most⟩
  have fills := job.fillFile_fills tally session host name location
  generalize job.fillFile name location tally session host = outcome at *
  cases fills with
  | unreadable => exact made
  | stopped => exact made
  | complete =>
      have told := job.report_calls name (job.counted tally session host)
        ((job.filled location tally session host).event (.memberWritten name))
      exact (told.trans (Host.event_quiet ..).calls).trans made

theorem treat_reads (job : UnpackJob) (visit : Visit) :
    ∃ count, visit.host.Makes visit.session.handle.number
        (List.replicate count (.readData visit.session.setup.options.chunkSize))
        (job.treat visit).host ∧ count ≤ visit.session.handle.weight + 1 := by
  have treats := job.treat_treats visit
  generalize job.treat visit = outcome at *
  cases treats with
  | refused => exact ⟨0, .of_calls _ (Host.event_quiet ..).calls, Nat.zero_le _⟩
  | obstructed clears => exact ⟨0, .of_calls _ clears.calls, Nat.zero_le _⟩
  | directory _ _ clears => exact ⟨0, .of_calls _ clears.calls, Nat.zero_le _⟩
  | blocked _ _ clears =>
      exact ⟨0, .of_calls _ ((Host.event_quiet ..).calls.trans clears.calls), Nat.zero_le _⟩
  | file _ _ clears =>
      obtain ⟨count, made, most⟩ := job.fillFile_reads _ _ _ visit.session _
      exact ⟨count, (Host.Makes.of_calls _ clears.calls).trans made, most⟩

theorem meets_reads {header : Header} (job : UnpackJob) (tally : Tally) (going : session.Going)
    (moved : (session.advance host).value = .ok (some header)) :
    ∃ count item, session.handle.headers = item :: (session.advance host).session.handle.headers ∧
      host.Makes session.handle.number
        (.nextHeader :: List.replicate count (.readData session.setup.options.chunkSize))
        (job.treat (meets tally session host header)).host ∧ count ≤ item.allowance := by
  obtain ⟨item, movedTo⟩ := Session.movedTo_of_advance moved
  have weight : (session.advance host).session.handle.weight = dataWeight item.data :=
    congrArg dataWeight movedTo.data
  obtain ⟨count, made, most⟩ := job.treat_reads (meets tally session host header)
  simp only [meets, session.advance_setup, session.advance_number, weight] at made most
  refine ⟨count, item, movedTo.left, ?_, Nat.le_trans most (weight_lt_allowance item)⟩
  have asked : host.Makes session.handle.number [.nextHeader] (session.advance host).host :=
    (going.consults host).asked
  exact asked.trans made

theorem Goes.rounds {visits : List Visit} {final : Outcome (Except UnpackError Tally)}
    (goes : job.Goes tally session host visits final) (going : session.Going) :
    ∃ reads, host.Makes session.handle.number
        (Decoder.rounds session.setup.options.chunkSize reads) final.host ∧
      Allows session.handle.headers reads := by
  induction goes with
  | cancelled => exact ⟨[], .of_calls _ rfl, .nil _⟩
  | unreadable => exact ⟨[0], (going.consults _).asked, .last _⟩
  | ended => exact ⟨[0], (going.consults _).asked, .last _⟩
  | stopped _ moved =>
      obtain ⟨count, item, left, made, most⟩ := meets_reads job _ going moved
      rw [left]
      refine ⟨[count], ?_, .cons most (.nil _)⟩
      rw [rounds_cons]
      exact made.trans (.of_calls _ rfl)
  | @member tally next session host header later final _ moved done rest ih =>
      obtain ⟨count, item, left, made, most⟩ := meets_reads job tally going moved
      have setup := job.meets_setup tally session host header
      have headers := job.meets_headers tally session host header
      have number := job.meets_number tally session host header
      obtain ⟨reads, further, allows⟩ := ih (meets_going moved done)
      rw [setup, number] at further
      rw [headers] at allows
      rw [left]
      refine ⟨count :: reads, ?_, .cons most allows⟩
      rw [rounds_cons]
      exact made.trans further

end UnpackJob

namespace Session

variable {session : Session} {host : Host} {script : Script} {log : Log}

theorem readChunk_weight_le (session : Session) (host : Host) :
    (session.readChunk host).session.handle.weight ≤ session.handle.weight := by
  have less := session.handle.readData_weight_le session.setup.options.chunkSize
  have reads := session.readChunk_reads host
  generalize session.readChunk host = outcome at *
  cases reads with
  | chunk => exact less
  | broken => exact less
  | _ => exact Nat.le_refl _

theorem forEachChunk_weight_le {Gathered Cause : Type} (visitor : Visitor Gathered Cause)
    (gathered : Gathered) (session : Session) (host : Host) :
    (session.forEachChunk visitor gathered host).session.handle.weight ≤
      session.handle.weight := by
  fun_induction forEachChunk visitor gathered session host with
  | case1 => exact Nat.le_refl _
  | case2 _ session host => exact session.readChunk_weight_le host
  | case3 _ session host => exact session.readChunk_weight_le host
  | case4 _ session host => exact session.readChunk_weight_le host
  | case5 _ session host _ _ _ _ _ _ _ ih =>
      exact Nat.le_trans ih (session.readChunk_weight_le host)

theorem skipEntry_weight_le (session : Session) (host : Host) :
    (session.skipEntry host).session.handle.weight ≤ session.handle.weight := by
  have skips := session.skipEntry_skips host
  generalize session.skipEntry host = outcome at *
  cases skips with
  | skipped => exact Nat.zero_le _
  | broken => exact Nat.zero_le _
  | _ => exact Nat.le_refl _

/-- Nothing but a request for the next member gives a session more data to serve. -/
theorem perform_weight_le {operation : Operation} {after : Session}
    (still : operation.moves = false)
    (position : (session.perform host operation).position = .inSession after) :
    after.handle.weight ≤ session.handle.weight := by
  cases operation with
  | advance => cases still
  | read =>
      cases position
      exact session.readChunk_weight_le host
  | drain =>
      cases position
      exact session.forEachChunk_weight_le ..
  | copy sink state =>
      cases position
      exact session.forEachChunk_weight_le ..
  | skip =>
      cases position
      exact session.skipEntry_weight_le host
  | close => cases position
  | drop => cases position
  | abandon => cases position
  | _ =>
      cases position
      exact Nat.le_refl _

/-- On a member a session has no more data to be had than came with the header. -/
def Spares (script : Script) (session : Session) : Prop :=
  session.cursor = .onMember → ∃ item, script.headers[session.entriesSeen - 1]? = some item ∧
    session.handle.weight ≤ dataWeight item.data

theorem Spares.draws {failure : Option ArchiveError} {after : Session}
    (spares : session.Spares script) (draws : session.Draws failure after)
    (less : after.handle.weight ≤ session.handle.weight) : after.Spares script := by
  intro onMember
  cases draws with
  | served =>
      obtain ⟨item, there, most⟩ := spares onMember
      exact ⟨item, there, Nat.le_trans less most⟩
  | lost => cases onMember

theorem Tracks.advance_spares (tracks : session.Tracks script log) (host : Host) :
    (session.advance host).session.Spares script := by
  intro onMember
  have cursor := session.advance_cursor host
  rw [onMember] at cursor
  have seen := session.advance_entriesSeen host
  cases value : (session.advance host).value with
  | error => simp [value] at cursor
  | ok moved =>
      cases moved with
      | none => simp [value] at cursor
      | some header =>
          obtain ⟨item, movedTo⟩ := movedTo_of_advance value
          have left := tracks.toCome (going_of_advance value)
          rw [movedTo.left] at left
          rw [value] at seen
          refine ⟨item, ?_, ?_⟩
          · rw [seen, Nat.add_sub_cancel, ← List.head?_drop, ← left, List.head?_cons]
          · exact Nat.le_of_eq (congrArg dataWeight movedTo.data)

theorem Tracks.runProgram_spares (tracks : session.Tracks script log)
    (spares : session.Spares script) {history : List Operation}
    (stays : ∀ operation ∈ history, operation.Stays) (host : Host) :
    ∃ answers log after between,
      ArchiveTraversal.runProgram history (.inSession session) host =
        (answers, .inSession after, between) ∧
      after.Tracks script log ∧ after.Spares script := by
  induction history generalizing session log host with
  | nil => exact ⟨[], log, session, host, rfl, tracks, spares⟩
  | cons operation rest ih =>
      have first := stays operation List.mem_cons_self
      obtain ⟨next, position, onward⟩ := tracks.perform host first
      have still : next.Spares script := by
        cases moves : operation.moves with
        | false =>
            obtain ⟨⟨other, same, draws⟩, _⟩ := session.perform_draws host first moves
            cases position.symm.trans same
            exact spares.draws draws (perform_weight_le moves position)
        | true =>
            cases operation with
            | advance =>
                cases position
                exact tracks.advance_spares host
            | _ => cases moves
      obtain ⟨answers, log, after, between, ran, reached⟩ :=
        ih onward still (fun later member => stays later (List.mem_cons_of_mem _ member))
          (session.perform host operation).host
      refine ⟨(session.perform host operation).answer :: answers, log, after, between, ?_, reached⟩
      simp only [ArchiveTraversal.runProgram, Position.perform, position, ran]

def Spends (script : Script) (session : Session) (before after : Host) : Prop :=
  ∃ count, before.Makes session.handle.number
      (List.replicate count (.readData session.setup.options.chunkSize)) after ∧
    (session.entry = none → count = 0) ∧
    ∀ header, session.entry = some header → ∃ item,
      script.headers[session.entriesSeen - 1]? = some item ∧ item.header = some header ∧
      count ≤ item.allowance

theorem Tracks.spends {Gathered Cause : Type} (tracks : session.Tracks script log)
    (spares : session.Spares script) (visitor : Visitor Gathered Cause) (gathered : Gathered)
    (host : Host) :
    session.Spends script host (session.forEachChunk visitor gathered host).host := by
  obtain ⟨count, made, most, nowhere, _⟩ := session.forEachChunk_calls visitor gathered host
  refine ⟨count, made, fun off => nowhere fun onData => ?_, fun header stands => ?_⟩
  · obtain ⟨lent, there⟩ := tracks.present onData.cursor
    simp only [Session.entry, onData.cursor, there, Option.map_some, reduceCtorEq] at off
  · obtain ⟨item, there, own⟩ := tracks.read header stands
    obtain ⟨same, too, left⟩ := spares (onMember_of_entry stands)
    cases there.symm.trans too
    refine ⟨item, there, own, ?_⟩
    exact Nat.le_trans most (Nat.succ_le_of_lt (Nat.lt_of_le_of_lt left (weight_lt_allowance item)))

end Session

/-- What is asked of the next decoder between its being opened and freed is rounds of requests, no
more than the headers allow, and nothing else. -/
def Host.GoesRound (script : Script) (capacity : Nat) (before after : Host) : Prop :=
  ∃ calls reads, before.Makes before.allocated calls after ∧
    calls.filter Call.traverses = rounds capacity reads ∧ Allows script.headers reads

section

variable {path : Path} {host between after : Host} {script : Script} {blockSize capacity : Nat}

theorem Host.goesRound_of_refused {passed : List OpeningStep} {failing : OpeningStep}
    {reason : Reason} {tree : FileTree} {decoder : Option Script}
    (first : OpeningStep.FirstFailure (OpeningStep.course tree path blockSize decoder) passed
      failing reason)
    (called : host.Makes host.allocated
      (OpeningStep.calls (passed ++ [failing]) ++ OpeningStep.cleanup passed) after) :
    host.GoesRound script capacity after := by
  have still := List.filter_eq_nil_iff.mp (filter_lifeCalls blockSize path (List.forall_mem_nil _))
  refine ⟨_, [], called, List.filter_eq_nil_iff.mpr fun call member => still call ?_, .nil _⟩
  rw [lifeCalls, List.append_nil, List.mem_append, List.mem_singleton]
  exact first.opens_or_frees member

theorem Host.goesRound_of_life {reads : List Nat}
    (made : host.Makes host.allocated (lifeCalls blockSize path (rounds capacity reads)) after)
    (allows : Allows script.headers reads) : host.GoesRound script capacity after :=
  ⟨_, reads, made, filter_lifeCalls blockSize path fun _ member => traverses_of_rounds member,
    allows⟩

theorem unpackArchive_goesRound (next : host.decoders.head? = some (some script))
    (path output : Path) (options : UnpackOptions) (observer : Observer) :
    host.GoesRound script options.reader.normalized.chunkSize
      (unpackArchive path output options observer host).2 := by
  have unpacks := unpackArchive_unpacks path output options observer host
  have begins := Reader.openSession_begins path options.reader host
  generalize unpackVisits path output options observer host = visits at *
  generalize unpackArchive path output options observer host = result at *
  cases unpacks with
  | refused refused =>
      rw [refused] at begins
      cases begins with
      | refused _ first called => exact Host.goesRound_of_refused first called
  | @obstructed session _ _ _ opened =>
      rw [opened] at begins
      cases begins with
      | opened _ _ handle _ called =>
          have own : session.handle.number = host.allocated := congrArg Handle.number handle
          exact @Host.goesRound_of_life _ _ _ _ _ _ [] (Session.makes_life own called) (.nil _)
  | @ran session _ _ _ final opened _ goes =>
      rw [opened] at begins
      cases begins with
      | opened opens setup handle start called =>
          obtain ⟨_, nextToo⟩ := opens.next
          cases next.symm.trans (congrArg List.head? nextToo)
          have own : session.handle.number = host.allocated := congrArg Handle.number handle
          have headers : session.handle.headers = script.headers := congrArg Handle.headers handle
          obtain ⟨reads, made, allows⟩ := goes.rounds (.inl start)
          rw [setup, own] at made
          rw [headers] at allows
          exact Host.goesRound_of_life
            (Session.makes_life (goes.number.trans own) (called.trans made)) allows

theorem Listing.ofArchive_goesRound (next : host.decoders.head? = some (some script)) (path : Path)
    (options : ReaderOptions) : host.GoesRound script options.normalized.chunkSize
      (Listing.ofArchive path options host).2 := by
  have lists := Listing.ofArchive_lists path options host
  have idle {given rest : List HeaderItem} (split : script.headers = given ++ rest) :
      Allows script.headers (List.replicate (given.length + 1) 0) := by
    apply Allows.idle
    rw [split, List.length_append]
    omega
  generalize Listing.ofArchive path options host = result at *
  cases lists with
  | refused _ first called => exact Host.goesRound_of_refused first called
  | listed opens split _ _ _ called =>
      obtain ⟨_, nextToo⟩ := opens.next
      cases next.symm.trans (congrArg List.head? nextToo)
      rw [← rounds_idle options.normalized.chunkSize] at called
      exact Host.goesRound_of_life called (idle split)
  | broken opens split _ _ _ called =>
      obtain ⟨_, nextToo⟩ := opens.next
      cases next.symm.trans (congrArg List.head? nextToo)
      rw [← rounds_idle options.normalized.chunkSize] at called
      exact Host.goesRound_of_life called (idle split)

end

/-- Every run over an archive comes to an end. To unpack or to list it is to ask for a header, and
then for data of its member, and so on, and never to skip any data. There are at most as many such
rounds as there are headers, and one more for the end; and in each of them there are at most as many
requests for data as the member has bytes and pieces of data together, and one more. However a
session has been used before, to read all data that is left of its member, or to copy it to any
sink, takes no more than that. -/
theorem runs_bounded {host : Host} {script : Script}
    (next : host.decoders.head? = some (some script)) :
    let within (capacity : Nat) (after : Host) := ∃ calls reads,
      host.Makes host.allocated calls after ∧
      calls.filter Call.traverses = rounds capacity reads ∧
      reads.length ≤ script.headers.length + 1 ∧
      ∀ (index count : Nat), reads[index]? = some count → count ≤ ((script.headers[index]?).map
        fun item => dataSize item.data + item.data.length + 1).getD 0
    (∀ path output options observer, within options.reader.normalized.chunkSize
      (unpackArchive path output options observer host).2) ∧
    (∀ path options, within options.normalized.chunkSize (Listing.ofArchive path options host).2) ∧
    ∀ reader session opened, Reader.openSession reader host = (.opened session, opened) →
      ∀ history : List Operation, (∀ operation ∈ history, operation.Stays) →
        ∃ answers now before,
          runProgram history (.inSession session) opened = (answers, .inSession now, before) ∧
          let spends (after : Host) := ∃ count,
            before.Makes now.handle.number
              (List.replicate count (.readData now.setup.options.chunkSize)) after ∧
            (now.entry = none → count = 0) ∧
            ∀ header, now.entry = some header → ∃ item,
              script.headers[now.entriesSeen - 1]? = some item ∧ item.header = some header ∧
              count ≤ dataSize item.data + item.data.length + 1
          spends (now.drain before).host ∧
          ∀ {State : Type} (sink : Sink State) state, spends (now.copyTo sink state before).host := by
  refine ⟨fun path output options observer => ?_, fun path options => ?_, ?_⟩
  · obtain ⟨calls, reads, made, traversal, allows⟩ :=
      unpackArchive_goesRound next path output options observer
    exact ⟨calls, reads, made, traversal, allows.rounds, allows.data⟩
  · obtain ⟨calls, reads, made, traversal, allows⟩ := Listing.ofArchive_goesRound next path options
    exact ⟨calls, reads, made, traversal, allows.rounds, allows.data⟩
  · intro reader session between opened history stays
    obtain ⟨own, same, tracks⟩ := Session.tracks_of_opened opened
    cases next.symm.trans same
    have start := Session.of_openSession opened
    have fresh : session.Spares script := fun onMember => by cases start.symm.trans onMember
    obtain ⟨answers, log, now, before, ran, onward, spares⟩ :=
      tracks.runProgram_spares fresh stays between
    refine ⟨answers, now, before, ran, ?_, fun sink state => ?_⟩
    · exact onward.spends spares Session.collector [] before
    · exact onward.spends spares (Session.copier sink) (0, state) before

/-- A member has four bytes in two pieces, the first of which claims to be longer than it is. An
unpack asks for them three times, and a walk after the first chunk twice. -/
theorem four_bytes_within_bounds :
    let archive : Path := [0x78]
    let header : Header := ⟨some [0x61], none, 4, true, 0o100644⟩
    let script : Script :=
      { headers := [{ header := some header
                      data := [{ serving := .raw 9 [1] }, { serving := .content [2, 3, 4] }] }] }
    let host : Host :=
      { decoders := [some script], tree := { entries := [(archive, .file [0])] } }
    let options : ReaderOptions := { chunkSize := 3 }
    let after := (unpackArchive archive [0x6f] { reader := options } (fun _ _ _ => {}) host).2
    after.calls = ([.allocate, .supportFilters, .supportFormats, .openFile 10240 archive,
        .nextHeader, .readData 3, .readData 3, .readData 3, .nextHeader, .free] :
          List Call).map (Prod.mk 0) ∧
      (∃ calls reads, host.Makes 0 calls after ∧
        calls.filter Call.traverses = rounds 3 reads ∧ reads.length ≤ 2 ∧
        ∀ count, reads[0]? = some count → count ≤ 7) ∧
      ∃ session opened, (Reader.new archive options).openSession host = (.opened session, opened) ∧
        ∃ now before, (runProgram [.advance, .read] (.inSession session) opened).2 =
            (.inSession now, before) ∧ now.entry = some header ∧
          ∃ count, before.Makes 0 (List.replicate count (.readData 3)) (now.drain before).host ∧
            count ≤ 7 := by
  intro archive header script host options after
  have next : host.decoders.head? = some (some script) := rfl
  obtain ⟨unpacking, -, walking⟩ := runs_bounded next
  refine ⟨by cbv, ?_, ?_⟩
  · obtain ⟨calls, reads, made, traversal, most, each⟩ :=
      unpacking archive [0x6f] { reader := options } fun _ _ _ => {}
    exact ⟨calls, reads, made, traversal, most, each 0⟩
  · let session : Session :=
      { setup := ⟨archive, options.normalized⟩, buffer := [], handle := .ofScript 0 script }
    let opened := ((Reader.new archive options).openSession host).2
    have opens : (Reader.new archive options).openSession host = (.opened session, opened) :=
      Prod.ext (by cbv) rfl
    obtain ⟨answers, now, before, ran, ⟨count, made, -, most⟩, -⟩ :=
      walking _ _ _ opens [.advance, .read] (by simp [Operation.Stays])
    have there : (runProgram [.advance, .read] (.inSession session) opened).2.1 =
        .inSession { session with
          buffer := [1, 0, 0]
          handle := { session.handle with
            headers := [], lent := some header, serial := 1
            data := [{ serving := .content [2, 3, 4] }] }
          current := some ⟨1, header⟩, cursor := .onMember, entriesSeen := 1 } := by cbv
    rw [ran] at there
    cases there
    obtain ⟨item, same, -, most⟩ := most header rfl
    cases same
    exact ⟨session, opened, opens, _, before, by rw [ran], rfl, count, made, most⟩

end ArchiveTraversal
