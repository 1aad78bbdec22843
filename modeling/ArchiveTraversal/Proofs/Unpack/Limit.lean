import ArchiveTraversal.Proofs.Unpack.Interruption
import ArchiveTraversal.Proofs.Unpack.Transfers

/-!
What a size limit does to an unpack. Two runs of one job are followed side by side, one without a
limit and one with it. They do the same until a chunk takes the total past the limit; there the one
breaks off with that chunk read and not written, while the other goes on.
-/

namespace ArchiveTraversal

open Decoder

namespace UnpackJob

variable {job : UnpackJob} {tally : Tally} {session : Session} {host : Host} {info : MemberInfo}

theorem writer_under_limit {written : Written} {chunk : Bytes} {limit : Nat}
    (fits : written.total + chunk.length ≤ limit) :
    (job.limited (some limit)).writer.visit written chunk =
      (⟨chunk :: written.chunks, written.total + chunk.length⟩, none) := by
  simp only [writer, limited, Safety.checkSize, gt_iff_lt, Nat.not_lt.mpr fits, ↓reduceIte]

theorem writer_over_limit {written : Written} {chunk : Bytes} {limit : Nat}
    (exceeds : limit < written.total + chunk.length) :
    (job.limited (some limit)).writer.visit written chunk =
      (written, some (.sizeLimitExceeded (written.total + chunk.length) limit)) := by
  simp only [writer, limited, Safety.checkSize, gt_iff_lt, exceeds, ↓reduceIte]

end UnpackJob

/-- The bounded run has just read a chunk that takes it past its limit, and stops before it is
written; the free run writes it and goes on. -/
structure Crosses (limit start number : Nat) (before free bounded : Host) (seen : List Write)
    (next : Write) (rest : List Write) : Prop where
  stops : ∃ early capacity cancels,
    before.Adds bounded (early ++ (.call number (.readData capacity) :: raised cancels) ++
      [.event (.chunkRead next.size)]) ∧
    early.filterMap Record.chunk? = seen.map Write.size
  something : 0 < next.size
  goesOn : bounded.Transfers free rest
  fits : start + volume seen ≤ limit
  exceeds : limit < start + volume seen + next.size

namespace Crosses

variable {limit start number : Nat} {before between free bounded after : Host}
  {earlier seen rest more : List Write} {next : Write}

theorem after_transfers (first : before.Transfers between earlier)
    (crosses : Crosses limit (start + volume earlier) number between free bounded seen next rest) :
    Crosses limit start number before free bounded (earlier ++ seen) next rest := by
  obtain ⟨records, adds, sizes⟩ := first
  obtain ⟨early, capacity, cancels, further, sizesToo⟩ := crosses.stops
  have fits := crosses.fits
  have exceeds := crosses.exceeds
  constructor
  · refine ⟨records ++ early, capacity, cancels, ?_, ?_⟩
    · have whole := adds.trans further
      simpa only [List.append_assoc] using whole
    · rw [List.filterMap_append, sizes, sizesToo, List.map_append]
  · exact crosses.something
  · exact crosses.goesOn
  · rw [volume_append]
    omega
  · rw [volume_append]
    omega

theorem goes_on (crosses : Crosses limit start number before free bounded seen next rest)
    (transfers : free.Transfers after more) :
    Crosses limit start number before after bounded seen next (rest ++ more) :=
  ⟨crosses.stops, crosses.something, crosses.goesOn.trans transfers, crosses.fits,
    crosses.exceeds⟩

theorem of_journal (crosses : Crosses limit start number before free bounded seen next rest)
    {other : Host} (same : other.journal = bounded.journal) :
    Crosses limit start number before free other seen next rest := by
  obtain ⟨stops, something, goesOn, fits, exceeds⟩ := crosses
  constructor
  · simpa only [Host.Adds, same] using stops
  · exact something
  · simpa only [Host.Transfers, Host.Adds, same] using goesOn
  · exact fits
  · exact exceeds

end Crosses

namespace UnpackJob

variable {job : UnpackJob} {tally : Tally} {session : Session} {host : Host} {info : MemberInfo}

theorem crosses_here {limit start : Nat} {byte : UInt8} {more : Bytes} {free : Host}
    {rest : List Write} (onData : session.OnData) (location : Location)
    (filled : (session.readChunk host).value = .ok (byte :: more)) (fits : start ≤ limit)
    (exceeds : limit < start + (byte :: more).length)
    (goesOn : (session.readChunk host).host.Transfers free rest) :
    Crosses limit start session.handle.number host free (session.readChunk host).host []
      ⟨location, byte :: more⟩ rest := by
  obtain ⟨cancels, event, tells, adds⟩ := onData.readChunk_adds host
  rw [filled] at tells
  cases tells
  constructor
  · exact ⟨[], _, cancels, adds, rfl⟩
  · exact Nat.succ_pos _
  · exact goesOn
  · exact fits
  · exact exceeds

/-- Two walks from the same beginning, one of them bounded. -/
theorem walk_bounded {limit : Nat} {written : Written} (onData : session.OnData)
    (location : Location) (fits : written.total ≤ limit) :
    let free := session.forEachChunk (job.limited none).writer written host
    let bounded := session.forEachChunk (job.limited (some limit)).writer written host
    (bounded = free ∧ free.value.2.total ≤ limit) ∨
    ∃ (seen : List Bytes) (next : Bytes) (rest : List Bytes),
      bounded.value.1 = .stopped
        (.sizeLimitExceeded (written.total + seen.flatten.length + next.length) limit) ∧
      bounded.value.2.chunks = seen.reverse ++ written.chunks ∧
      free.value.2.chunks = (seen ++ next :: rest).reverse ++ written.chunks ∧
      Crosses limit written.total session.handle.number host free.host bounded.host
        (seen.map (Write.mk location)) ⟨location, next⟩ (rest.map (Write.mk location)) := by
  intro free bounded
  simp only [free, bounded]
  -- Along the free walk. The bounded one takes every chunk that it takes, up to the limit.
  fun_induction Session.forEachChunk (job.limited none).writer written session host with
  | case1 written session host cause halts =>
      left
      have same : (job.limited (some limit)).writer.halt host = some cause := halts
      rw [Session.forEachChunk]
      simp only [same]
      exact ⟨trivial, fits⟩
  | case2 written session host goesOn read error failed =>
      left
      have goesOnToo : (job.limited (some limit)).writer.halt host = none := goesOn
      rw [session.forEachChunk_step host _ written goesOnToo]
      have value : (session.readChunk host).value = .error error := failed
      simp only [value]
      exact ⟨rfl, fits⟩
  | case3 written session host goesOn read empty =>
      left
      have goesOnToo : (job.limited (some limit)).writer.halt host = none := goesOn
      rw [session.forEachChunk_step host _ written goesOnToo]
      have value : (session.readChunk host).value = .ok [] := empty
      simp only [value]
      exact ⟨rfl, fits⟩
  | case4 written session host goesOn read byte more filled last cause refuses => cases refuses
  | case5 written session host goesOn read byte more filled next accepted ih =>
      have value : (session.readChunk host).value = .ok (byte :: more) := filled
      have stays := (onData.readChunk_ok filled).2.2.2.2
      have goesOnToo : (job.limited (some limit)).writer.halt host = none := goesOn
      rw [session.forEachChunk_step host _ written goesOnToo]
      cases accepted
      by_cases exceeds : limit < written.total + (byte :: more).length
      · -- The bounded walk stops at this chunk; the free one has it written, and what follows.
        right
        obtain ⟨rest, chunks, transfers⟩ := walk_transfers job stays read.host location
          ⟨(byte :: more) :: written.chunks, written.total + (byte :: more).length⟩
        simp only [value, writer_over_limit exceeds]
        refine ⟨[], byte :: more, rest, by simp, rfl, ?_, ?_⟩
        · exact chunks.trans (by simp)
        · exact crosses_here onData location value fits exceeds transfers
      · have within := Nat.not_lt.mp exceeds
        simp only [value, writer_under_limit within]
        rcases ih stays within with same | ⟨seen, next, rest, stopped, kept, chunks, crosses⟩
        · exact .inl same
        · right
          have first := readChunk_transfers onData location value
          rw [show read.session.handle.number = _ from session.readChunk_number host] at crosses
          refine ⟨(byte :: more) :: seen, next, rest, ?_, ?_, ?_, ?_⟩
          · rw [stopped, List.flatten_cons, List.length_append, ← Nat.add_assoc]
          · rw [kept]
            simp
          · rw [chunks]
            simp
          · exact crosses.after_transfers first

theorem fillFile_bounded (job : UnpackJob) (onData : session.OnData) (name : String)
    (location : Location) (host : Host) {limit : Nat} (fits : tally.bytes ≤ limit) :
    let free := (job.limited none).fillFile name location tally session host
    let bounded := (job.limited (some limit)).fillFile name location tally session host
    ((job.limited (some limit)).walk tally session host =
        (job.limited none).walk tally session host ∧ bounded = free ∧
      ((job.limited none).walk tally session host).value.2.total ≤ limit) ∨
    ∃ (seen : List Bytes) (next : Bytes) (rest : List Bytes),
      bounded.value = .error
        (.sizeLimitExceeded (tally.bytes + seen.flatten.length + next.length) limit) ∧
      ((job.limited (some limit)).walk tally session host).value.2.chunks = seen.reverse ∧
      ((job.limited none).walk tally session host).value.2.chunks =
        (seen ++ next :: rest).reverse ∧
      Crosses limit tally.bytes session.handle.number host free.host bounded.host
        (seen.map (Write.mk location)) ⟨location, next⟩ (rest.map (Write.mk location)) := by
  intro free bounded
  have settles := (job.limited none).fillFile_settles name location tally session host
  have start : ({ total := tally.bytes } : Written).total ≤ limit := fits
  rcases walk_bounded onData location start with
    ⟨same, within⟩ | ⟨seen, next, rest, stopped, kept, chunks, crosses⟩
  · left
    refine ⟨same, ?_, within⟩
    simp only [bounded, free, fillFile, same]
    rfl
  · right
    have ends : bounded = ⟨.error (.sizeLimitExceeded
        (tally.bytes + seen.flatten.length + next.length) limit),
        ((job.limited (some limit)).walk tally session host).session,
        (job.limited (some limit)).filled location tally session host⟩ := by
      simp only [bounded, fillFile, stopped]
      rfl
    refine ⟨seen, next, rest, ?_, ?_, ?_, ?_⟩
    · rw [ends]
    · rw [walk, kept, List.append_nil]
    · rw [walk, chunks, List.append_nil]
    · rw [ends]
      have further := crosses.goes_on settles
      rw [List.append_nil] at further
      exact further.of_journal rfl

theorem treat_bounded (job : UnpackJob) (visit : Visit) {limit : Nat}
    (fits : visit.tally.bytes ≤ limit)
    (onData : visit.info.isDirectory = false → visit.session.OnData) :
    let free := job.limited none
    let bounded := job.limited (some limit)
    (bounded.treat visit = free.treat visit ∧ bounded.writesOf visit = free.writesOf visit ∧
      visit.tally.bytes + volume (free.writesOf visit) ≤ limit) ∨
    ∃ (next : Write) (rest : List Write),
      (bounded.treat visit).value = .error (.sizeLimitExceeded
        (visit.tally.bytes + volume (bounded.writesOf visit) + next.size) limit) ∧
      free.writesOf visit = bounded.writesOf visit ++ next :: rest ∧
      Crosses limit visit.tally.bytes visit.session.handle.number visit.host
        (free.treat visit).host (bounded.treat visit).host (bounded.writesOf visit) next rest := by
  intro free bounded
  -- Only a member whose data goes somewhere can come up against the limit.
  cases found : visit.host.target? job.output visit.info with
  | none =>
      left
      have freely : free.treat visit = job.treat visit := unpackMember_limited _ _ none found
      have boundedly : bounded.treat visit = job.treat visit :=
        unpackMember_limited _ _ (some limit) found
      rw [freely, boundedly, writesOf_of_nowhere free found,
        writesOf_of_nowhere bounded found]
      exact ⟨rfl, rfl, fits⟩
  | some target =>
      obtain ⟨location, ready⟩ := target
      obtain ⟨regular, clears, freely⟩ := treat_of_target free found
      obtain ⟨_, _, boundedly⟩ := treat_of_target bounded found
      rw [freely, boundedly, writesOf_of_target free found,
        writesOf_of_target bounded found]
      rcases fillFile_bounded job (onData regular) visit.info.path location ready fits with
        ⟨walk, same, within⟩ | ⟨seen, next, rest, exceeded, kept, chunks, crosses⟩
      · left
        rw [walk_total, Written.content, ← volume_map location] at within
        rw [walk]
        exact ⟨same, rfl, within⟩
      · right
        refine ⟨⟨location, next⟩, rest.map (Write.mk location), ?_, ?_, ?_⟩
        · rw [kept, List.reverse_reverse, volume_map]
          exact exceeded
        · rw [kept, chunks, List.reverse_reverse, List.reverse_reverse, List.map_append,
            List.map_cons]
        · rw [kept, List.reverse_reverse]
          exact crosses.after_transfers clears.transfers

/-- The bounded run stops at a chunk of the member that this visit is to, which the free run writes
before it goes on. -/
structure Overruns (job : UnpackJob) (limit : Nat) (tally : Tally) (session : Session)
    (host after : Host) (earlier : List Visit) (visit : Visit) (later : List Visit)
    (early : Outcome (Except UnpackError Tally)) (next : Write) (rest : List Write) : Prop where
  goes : (job.limited (some limit)).Goes tally session host (earlier ++ [visit]) early
  alike : ∀ other ∈ earlier,
    (job.limited (some limit)).writesOf other = (job.limited none).writesOf other
  cut : (job.limited none).writesOf visit =
    (job.limited (some limit)).writesOf visit ++ next :: rest
  exceeded : early.value = .error (.sizeLimitExceeded
    (tally.bytes + volume ((job.limited (some limit)).writes (earlier ++ [visit])) + next.size)
    limit)
  number : early.session.handle.number = session.handle.number
  crosses : Crosses limit tally.bytes session.handle.number host after early.host
    ((job.limited (some limit)).writes (earlier ++ [visit])) next
    (rest ++ (job.limited none).writes later)

namespace Overruns

variable {limit : Nat} {after : Host} {earlier later : List Visit} {visit : Visit}
  {early : Outcome (Except UnpackError Tally)} {next : Write} {rest : List Write}

theorem writes
    (overruns : job.Overruns limit tally session host after earlier visit later early next rest) :
    (job.limited none).writes (earlier ++ visit :: later) =
      (job.limited (some limit)).writes (earlier ++ [visit]) ++
        next :: (rest ++ (job.limited none).writes later) := by
  have same : earlier.flatMap (job.limited (some limit)).writesOf =
      earlier.flatMap (job.limited none).writesOf := List.flatMap_congr overruns.alike
  simp only [UnpackJob.writes, List.flatMap_append, List.flatMap_cons, List.flatMap_nil,
    overruns.cut, same, List.append_nil, List.append_assoc, List.cons_append]

/-- The same is delivered by both runs, up to the chunk at which the bounded one stops. -/
theorem deliveries
    (overruns : job.Overruns limit tally session host after earlier visit later early next rest) :
    ∃ before kept others more,
      (earlier ++ visit :: later).map (job.limited none).delivery =
        before ++ ⟨visit.info, kept ++ next.chunk :: others⟩ :: more ∧
      (earlier ++ [visit]).map (job.limited (some limit)).delivery =
        before ++ [⟨visit.info, kept⟩] ∧
      early.host.tree.at? next.location = some (.file kept.flatten) := by
  have same : earlier.map (job.limited (some limit)).delivery =
      earlier.map (job.limited none).delivery :=
    List.map_congr_left fun other among => by
      rw [delivery, delivery, overruns.alike other among]
  have cut := overruns.cut
  refine ⟨earlier.map (job.limited none).delivery,
    ((job.limited (some limit)).writesOf visit).map Write.chunk, rest.map Write.chunk,
    later.map (job.limited none).delivery, ?_, ?_, ?_⟩
  · rw [List.map_append, List.map_cons, delivery, cut, List.map_append, List.map_cons]
  · rw [List.map_append, List.map_singleton, same]
    rfl
  · cases found : visit.host.target? job.output visit.info with
    | none =>
        rw [writesOf_of_nowhere (job.limited none) found] at cut
        simp at cut
    | some target =>
        obtain ⟨location, ready⟩ := target
        have there : next.location = location := by
          have among : next ∈ (job.limited none).writesOf visit := by simp [cut]
          rw [writesOf_of_target (job.limited none) found] at among
          obtain ⟨_, _, rfl⟩ := List.mem_map.mp among
          rfl
        rw [there]
        exact overruns.goes.holds rfl found

end Overruns

theorem overruns_here {limit : Nat} {header : Header} {next : Write} {rest : List Write}
    {later : List Visit} {after : Host} (going : session.Going) (lowered : host.cancelled = false)
    (moved : (session.advance host).value = .ok (some header))
    (exceeded : ((job.limited (some limit)).treat (meets tally session host header)).value =
      .error (.sizeLimitExceeded (tally.bytes + volume ((job.limited (some limit)).writesOf
        (meets tally session host header)) + next.size) limit))
    (split : (job.limited none).writesOf (meets tally session host header) =
      (job.limited (some limit)).writesOf (meets tally session host header) ++ next :: rest)
    (crosses : Crosses limit tally.bytes (session.advance host).session.handle.number
      (session.advance host).host
      ((job.limited none).treat (meets tally session host header)).host
      ((job.limited (some limit)).treat (meets tally session host header)).host
      ((job.limited (some limit)).writesOf (meets tally session host header)) next rest)
    (onward : ((job.limited none).treat (meets tally session host header)).host.Transfers after
      ((job.limited none).writes later)) :
    job.Overruns limit tally session host after [] (meets tally session host header) later
      ⟨.error (.sizeLimitExceeded (tally.bytes + volume ((job.limited (some limit)).writesOf
          (meets tally session host header)) + next.size) limit),
        ((job.limited (some limit)).treat (meets tally session host header)).session,
        ((job.limited (some limit)).treat (meets tally session host header)).host⟩ next rest := by
  have number := session.advance_number host
  have alone : (job.limited (some limit)).writes ([] ++ [meets tally session host header]) =
      (job.limited (some limit)).writesOf (meets tally session host header) :=
    List.flatMap_singleton ..
  constructor
  · exact .stopped lowered moved exceeded
  · exact fun _ none => absurd none List.not_mem_nil
  · exact split
  · rw [alone]
  · exact (treat_number ..).trans number
  · rw [alone, ← number]
    exact Crosses.after_transfers (going.advance_transfers host) (crosses.goes_on onward)

theorem overruns_later {limit : Nat} {header : Header} {following : Tally} {after : Host}
    {earlier later : List Visit} {visit : Visit} {early : Outcome (Except UnpackError Tally)}
    {next : Write} {rest : List Write} (going : session.Going) (lowered : host.cancelled = false)
    (moved : (session.advance host).value = .ok (some header))
    (same : (job.limited (some limit)).treat (meets tally session host header) =
      (job.limited none).treat (meets tally session host header))
    (written : (job.limited (some limit)).writesOf (meets tally session host header) =
      (job.limited none).writesOf (meets tally session host header))
    (done : ((job.limited none).treat (meets tally session host header)).value = .ok following)
    (overruns : job.Overruns limit following
      ((job.limited none).treat (meets tally session host header)).session
      ((job.limited none).treat (meets tally session host header)).host after earlier visit later
      early next rest) :
    job.Overruns limit tally session host after (meets tally session host header :: earlier) visit
      later early next rest := by
  obtain ⟨_, movedTo⟩ := Session.movedTo_of_advance moved
  have visited := treat_transfers job (meets tally session host header) movedTo.onData
  have bytes : following.bytes = tally.bytes +
      volume ((job.limited none).writesOf (meets tally session host header)) := treat_bytes done
  obtain ⟨goes, alike, cut, exceeded, number, crosses⟩ := overruns
  have both : (job.limited (some limit)).writes
        (meets tally session host header :: earlier ++ [visit]) =
      (job.limited none).writesOf (meets tally session host header) ++
        (job.limited (some limit)).writes (earlier ++ [visit]) := by
    rw [← written]
    rfl
  have kept : ((job.limited none).treat (meets tally session host header)).session.handle.number =
      session.handle.number := (treat_number ..).trans (session.advance_number host)
  -- The bounded run gets past the first member by what the free one does there.
  rw [← same] at done goes
  constructor
  · exact .member lowered moved done goes
  · exact List.forall_mem_cons.mpr ⟨written, alike⟩
  · exact cut
  · rw [exceeded, both, volume_append, bytes, Nat.add_assoc tally.bytes]
  · exact number.trans kept
  · rw [both]
    rw [kept, bytes] at crosses
    have first : host.Transfers ((job.limited none).treat (meets tally session host header)).host
        ((job.limited none).writesOf (meets tally session host header)) :=
      (going.advance_transfers host).trans visited
    exact Crosses.after_transfers first crosses

theorem Goes.bounded {limit : Nat} {visits : List Visit}
    {final : Outcome (Except UnpackError Tally)}
    (goes : (job.limited none).Goes tally session host visits final) (going : session.Going)
    (fits : tally.bytes ≤ limit) :
    ((job.limited (some limit)).Goes tally session host visits final ∧
      (job.limited (some limit)).writes visits = (job.limited none).writes visits ∧
      tally.bytes + volume ((job.limited none).writes visits) ≤ limit) ∨
    ∃ earlier visit later early next rest, visits = earlier ++ visit :: later ∧
      job.Overruns limit tally session host final.host earlier visit later early next rest := by
  -- Along the free run: the runs part at the first visit that the bounded one does not get through.
  induction goes with
  | cancelled raised => exact .inl ⟨.cancelled raised, rfl, fits⟩
  | unreadable lowered failed => exact .inl ⟨.unreadable lowered failed, rfl, fits⟩
  | ended lowered ended => exact .inl ⟨.ended lowered ended, rfl, fits⟩
  | @stopped tally session host header error lowered moved broken =>
      obtain ⟨_, movedTo⟩ := Session.movedTo_of_advance moved
      rcases treat_bounded job (meets tally session host header) fits
        movedTo.onData with ⟨same, written, within⟩ | ⟨next, rest, exceeded, split, crosses⟩
      · left
        rw [writes, writes, List.flatMap_singleton, List.flatMap_singleton]
        rw [← same] at broken
        refine ⟨?_, written, within⟩
        rw [← same]
        exact .stopped lowered moved broken
      · right
        exact ⟨[], _, [], _, next, rest, rfl,
          overruns_here going lowered moved exceeded split crosses (.refl _)⟩
  | @member tally next session host header later final lowered moved done others ih =>
      obtain ⟨_, movedTo⟩ := Session.movedTo_of_advance moved
      have waits := meets_going moved done
      have bytes : next.bytes = tally.bytes +
          volume ((job.limited none).writesOf (meets tally session host header)) := treat_bytes done
      rcases treat_bounded job (meets tally session host header) fits
        movedTo.onData with ⟨same, written, within⟩ | ⟨next, rest, exceeded, split, crosses⟩
      · rcases ih waits (bytes ▸ within) with
          ⟨alike, writtenToo, withinToo⟩ | ⟨earlier, visit, rest, _, _, _, rfl, overruns⟩
        · left
          rw [← same] at done alike
          rw [writes, writes, List.flatMap_cons, List.flatMap_cons]
          refine ⟨.member lowered moved done alike, ?_, ?_⟩
          · rw [written]
            exact congrArg _ writtenToo
          · rw [volume_append, ← Nat.add_assoc, ← bytes]
            exact withinToo
        · right
          exact ⟨_ :: earlier, visit, rest, _, _, _, rfl,
            overruns_later going lowered moved same written done overruns⟩
      · right
        exact ⟨[], _, later, _, next, rest, rfl,
          overruns_here going lowered moved exceeded split crosses (others.transfers waits)⟩

end UnpackJob

theorem Record.chunk?_pos (records : List Record) {size : Nat}
    (member : size ∈ records.filterMap chunk?) : 0 < size := by
  obtain ⟨entry, _, read⟩ := List.mem_filterMap.mp member
  unfold chunk? at read
  split at read
  · cases read
    exact Nat.succ_pos _
  · cases read

/-- The journals of two runs are the same until the decoder has given the chunk after those seen.
There the bounded run frees the decoder, while the free run goes on. -/
def PartsAfter (host free bounded : Host) (seen : List Write) : Prop :=
  ∃ early number capacity cancels size later closing,
    host.Adds free (early ++ .call number (.readData capacity) :: raised cancels ++
      .event (.chunkRead size) :: later) ∧
    host.Adds bounded (early ++ .call number (.readData capacity) :: raised cancels ++
      [.event (.chunkRead size), .call number .free, .event closing]) ∧
    early.filterMap Record.chunk? = seen.map Write.size ∧ 0 < size ∧
    Session.TellsOfClosing closing

theorem Crosses.parts {limit start number : Nat} {host before free bounded : Host}
    {seen rest : List Write} {next : Write}
    (crosses : Crosses limit start number before free bounded seen next rest)
    (opening : host.Transfers before []) (later : Session) {early : Session}
    (same : early.handle.number = number) :
    PartsAfter host (later.close free).2.2 (early.close bounded).2.2 seen := by
  obtain ⟨first, capacity, cancels, stops, sizes⟩ := (Crosses.after_transfers opening crosses).stops
  obtain ⟨others, further, _⟩ := crosses.goesOn.trans (later.close_transfers free)
  obtain ⟨closing, tells, closes⟩ := early.close_adds bounded
  rw [same] at closes
  have whole := stops.trans further
  have closed := stops.trans closes
  refine ⟨first, number, capacity, cancels, next.size, others, closing, ?_, ?_, sizes,
    crosses.something, tells⟩
  · simpa only [List.append_assoc, List.singleton_append, List.cons_append, List.nil_append]
      using whole
  · simpa only [List.append_assoc, List.singleton_append, List.cons_append, List.nil_append]
      using closed

section

variable (path output : Path) (reader : ReaderOptions) (observer : Observer) (host : Host)

theorem unpackArchive_parts (limit : Nat) :
    let free := unpackArchive path output ⟨none, reader⟩ observer host
    let bounded := unpackArchive path output ⟨some limit, reader⟩ observer host
    let freely := unpackWrites path output ⟨none, reader⟩ observer host
    let boundedly := unpackWrites path output ⟨some limit, reader⟩ observer host
    (bounded = free ∧ boundedly = freely ∧ volume freely ≤ limit) ∨
    ∃ next rest,
      bounded.1 = .error (.sizeLimitExceeded (volume boundedly + next.size) limit) ∧
      freely = boundedly ++ next :: rest ∧ volume boundedly ≤ limit ∧
      limit < volume boundedly + next.size ∧
      PartsAfter host free.2 bounded.2 boundedly ∧
      ∃ earlier info kept others later,
        unpackDeliveries path output ⟨none, reader⟩ observer host =
          earlier ++ ⟨info, kept ++ next.chunk :: others⟩ :: later ∧
        unpackDeliveries path output ⟨some limit, reader⟩ observer host =
          earlier ++ [⟨info, kept⟩] ∧
        bounded.2.tree.at? next.location = some (.file kept.flatten) := by
  intro free bounded freely boundedly
  have opening := Reader.openSession_transfers path reader host
  have unpacks := unpackArchive_unpacks path output ⟨none, reader⟩ observer host
  have written : freely = _ := unpacks.writes
  have delivered := unpacks.deliveries
  change Unpacks path output ⟨none, reader⟩ observer host _ free at unpacks
  generalize unpackVisits path output ⟨none, reader⟩ observer host = visits at *
  generalize free = result at *
  cases unpacks with
  | refused refused =>
      have same : Unpacks path output ⟨some limit, reader⟩ observer host _ _ := .refused refused
      have alike : boundedly = _ := same.writes
      rw [written, alike]
      exact .inl ⟨same.eq.2.symm, rfl, Nat.zero_le limit⟩
  | obstructed opened making =>
      have same : Unpacks path output ⟨some limit, reader⟩ observer host _ _ :=
        .obstructed opened making
      have alike : boundedly = _ := same.writes
      rw [written, alike]
      exact .inl ⟨same.eq.2.symm, rfl, Nat.zero_le limit⟩
  | @ran session between made _ final opened making goes =>
      obtain ⟨_, _, _, _, _, start⟩ := Reader.openSession_opened opened
      rw [opened] at opening
      have started : ({} : Tally).bytes ≤ limit := Nat.zero_le limit
      have freely : (UnpackJob.limited ⟨output, none, observer⟩ none).Goes {} session _ _ final :=
        goes
      rcases freely.bounded (.inl start) started with
        ⟨alike, writtenToo, within⟩ | ⟨earlier, visit, later, early, next, rest, rfl, overruns⟩
      · have same : Unpacks path output ⟨some limit, reader⟩ observer host _ _ :=
          .ran opened making alike
        have bound : boundedly = _ := same.writes
        left
        rw [written, bound]
        refine ⟨same.eq.2.symm, writtenToo, ?_⟩
        exact (Nat.zero_add _).symm.trans_le within
      · have same : Unpacks path output ⟨some limit, reader⟩ observer host _ _ :=
          .ran opened making overruns.goes
        have bound : boundedly = _ := same.writes
        have ran : bounded = _ := same.eq.2.symm
        have fits := overruns.crosses.fits
        have exceeds := overruns.crosses.exceeds
        have exceeded := overruns.exceeded
        rw [Nat.zero_add] at exceeded fits exceeds
        obtain ⟨before, kept, others, more, all, fewer, holds⟩ := overruns.deliveries
        right
        rw [written, bound, ran, delivered, same.deliveries]
        refine ⟨next, _, exceeded, overruns.writes, fits, exceeds, ?_,
          before, visit.info, kept, others, more, all, fewer, ?_⟩
        · exact overruns.crosses.parts opening final.session overruns.number
        · rw [(early.session.close_extends early.host).tree]
          exact holds

end

/-- What the first so many chunks come to. -/
def totalAt (sizes : List Nat) (index : Nat) : Nat := (sizes.take index).sum

theorem totalAt_mono (sizes : List Nat) {index later : Nat} (before : index ≤ later) :
    totalAt sizes index ≤ totalAt sizes later := by
  apply List.Sublist.sum_le_sum
  · exact List.take_sublist_take_left before
  · intro size _
    exact Nat.zero_le size

theorem totalAt_le (sizes : List Nat) (index : Nat) : totalAt sizes index ≤ sizes.sum := by
  apply List.Sublist.sum_le_sum
  · exact List.take_sublist _ _
  · intro size _
    exact Nat.zero_le size

theorem totalAt_succ {sizes : List Nat} {index : Nat} (within : index < sizes.length) :
    totalAt sizes (index + 1) = totalAt sizes index + sizes[index] :=
  List.sum_take_succ sizes index within

theorem totalAt_seen (seen more : List Write) :
    totalAt ((seen ++ more).map Write.size) seen.length = volume seen := by
  rw [totalAt, ← List.map_take, List.take_left, volume]

theorem totalAt_next (seen rest : List Write) (next : Write) :
    totalAt ((seen ++ next :: rest).map Write.size) (seen.length + 1) =
      volume seen + next.size := by
  rw [totalAt_succ (by simp), totalAt_seen]
  simp

/-- Totals before that of what has been seen are no greater, and those after it no less than the
first that exceeds the limit. -/
theorem crossing_index {seen rest : List Write} {next : Write} {limit index : Nat}
    (fits : volume seen ≤ limit) (crossing : limit < volume seen + next.size)
    (fit : ∀ earlier ≤ index, totalAt ((seen ++ next :: rest).map Write.size) earlier ≤ limit)
    (exceeds : limit < totalAt ((seen ++ next :: rest).map Write.size) (index + 1)) :
    index = seen.length := by
  rcases Nat.lt_trichotomy index seen.length with early | here | late
  · have less := totalAt_mono ((seen ++ next :: rest).map Write.size) (Nat.succ_le_of_lt early)
    rw [totalAt_seen] at less
    exact absurd exceeds (Nat.not_lt.mpr (less.trans fits))
  · exact here
  · have past := fit (seen.length + 1) late
    rw [totalAt_next] at past
    exact absurd crossing (Nat.not_lt.mpr past)

/-- What a size limit does to an unpack. Followed without a limit, it reads chunks whose sizes add
up to growing totals. If these all stay within the limit, it goes the same way under the limit. If
not, it fails right after the first chunk that takes the total past the limit, which is not
written; what it has written by then is what it also writes without a limit. So both trees come of
the same members, delivered below the same directory: under the limit the last of them is cut short
where that chunk begins, and this is all that its file holds. -/
theorem unpackArchive_bounded (path output : Path) (reader : ReaderOptions) (observer : Observer)
    (host : Host) (limit : Nat) :
    let free := unpackArchive path output ⟨none, reader⟩ observer host
    let bounded := unpackArchive path output ⟨some limit, reader⟩ observer host
    let freely := unpackWrites path output ⟨none, reader⟩ observer host
    let boundedly := unpackWrites path output ⟨some limit, reader⟩ observer host
    let all := unpackDeliveries path output ⟨none, reader⟩ observer host
    let fewer := unpackDeliveries path output ⟨some limit, reader⟩ observer host
    let made := (host.tree.makeDirectories output).2
    ∃ records, host.Adds free.2 records ∧
      let sizes := records.filterMap Record.chunk?
      freely.map Write.size = sizes ∧
      (∀ index < sizes.length, totalAt sizes index < totalAt sizes (index + 1)) ∧
      ((∀ index ≤ sizes.length, totalAt sizes index ≤ limit) →
        bounded = free ∧ boundedly = freely) ∧
      ∀ index < sizes.length, (∀ earlier ≤ index, totalAt sizes earlier ≤ limit) →
        limit < totalAt sizes (index + 1) →
        bounded.1 = .error (.sizeLimitExceeded (totalAt sizes (index + 1)) limit) ∧
        boundedly = freely.take index ∧ volume boundedly = totalAt sizes index ∧
        PartsAfter host free.2 bounded.2 boundedly ∧
        made.receiveAll output all = (freely, free.2.tree) ∧
        made.receiveAll output fewer = (boundedly, bounded.2.tree) ∧
        ∃ earlier info kept next others later, freely[index]? = some next ∧
          all = earlier ++ ⟨info, kept ++ next.chunk :: others⟩ :: later ∧
          fewer = earlier ++ [⟨info, kept⟩] ∧
          bounded.2.tree.at? next.location = some (.file kept.flatten) := by
  intro free bounded freely boundedly all fewer made
  obtain ⟨records, adds, sizes⟩ := unpackArchive_transfers path output reader observer host
  refine ⟨records, adds, sizes.symm, ?_, ?_, ?_⟩
  · intro index within
    rw [totalAt_succ within]
    have positive := Record.chunk?_pos _ (List.getElem_mem within)
    omega
  · intro fit
    rcases unpackArchive_parts path output reader observer host limit with
      ⟨same, alike, _⟩ | ⟨next, rest, _, split, _, exceeds, _⟩
    · exact ⟨same, alike⟩
    · rw [sizes, split] at fit
      have last := fit (boundedly.length + 1) (by simp [boundedly])
      rw [totalAt_next] at last
      exact absurd exceeds (Nat.not_lt.mpr last)
  · intro index within fit exceeds
    rcases unpackArchive_parts path output reader observer host limit with
      ⟨_, _, small⟩ | ⟨next, rest, failed, split, fits, crossing, parts, earlier, info, kept,
        others, later, whole, cut, holds⟩
    · rw [sizes] at exceeds
      have total := totalAt_le (freely.map Write.size) (index + 1)
      exact absurd exceeds (Nat.not_lt.mpr (total.trans small))
    · rw [sizes, split] at fit exceeds ⊢
      -- Totals only grow, so the first one past the limit is where the runs part.
      have here := crossing_index fits crossing fit exceeds
      have unpacks := unpackArchive_unpacks path output ⟨none, reader⟩ observer host
      have unpacksToo := unpackArchive_unpacks path output ⟨some limit, reader⟩ observer host
      have tree : made.receiveAll output all = (freely, free.2.tree) :=
        unpacks.receives.resolve_left fun none => by simp [whole] at none
      have smaller : made.receiveAll output fewer = (boundedly, bounded.2.tree) :=
        unpacksToo.receives.resolve_left fun none => by simp [cut] at none
      have first : freely = boundedly ++ next :: rest := split
      rw [here, totalAt_next, totalAt_seen]
      refine ⟨failed, by rw [first, List.take_left], rfl, parts, tree, smaller, earlier, info,
        kept, next, others, later, ?_, whole, cut, holds⟩
      rw [first, List.getElem?_append_right le_rfl, Nat.sub_self, List.getElem?_cons_zero]

/-- Two files, the second one of two pieces, and room for the first of them: the file holds that
one, and the other is what it lacks. -/
theorem second_file_past_limit :
    let archive : Path := [0x78]
    let output : Path := [0x6F]
    let header (name : Name) : Header := ⟨some name, none, 2, true, 0o100644⟩
    let script : Script :=
      { headers := [{ header := some (header [0x61]), data := [{ serving := .content [1, 2] }] },
          { header := some (header [0x62]),
            data := [{ serving := .content [3] }, { serving := .content [4, 5] }] }] }
    let host : Host := { decoders := [some script], tree := { entries := [(archive, .file [0])] } }
    let ran (limit : Option Nat) := unpackArchive archive output ⟨limit, {}⟩ (fun _ _ _ => {}) host
    let written := unpackWrites archive output ⟨some 3, {}⟩ (fun _ _ _ => {}) host
    (ran none).1 = .ok { files := 2, bytes := 5 } ∧
      (ran (some 3)).1 = .error (.sizeLimitExceeded 5 3) ∧ volume written = 3 ∧
      PartsAfter host (ran none).2 (ran (some 3)).2 written ∧
      (ran none).2.tree.at? [output, [0x62]] = some (.file [3, 4, 5]) ∧
      (ran (some 3)).2.tree.at? [output, [0x61]] = some (.file [1, 2]) ∧
      (ran (some 3)).2.tree.at? [output, [0x62]] = some (.file [3]) := by
  intro archive output header script host ran written
  obtain ⟨records, adds, _, _, _, exceeds⟩ :=
    unpackArchive_bounded archive output {} (fun _ _ _ => {}) host 3
  have fine : (ran none).1 = .ok { files := 2, bytes := 5 } := by cbv
  have sizes : records.filterMap Record.chunk? = [2, 1, 2] := by
    have all : records = (ran none).2.journal.toList := by
      rw [show (ran none).2.journal.toList = _ from adds]
      rfl
    rw [all]
    cbv
  rw [sizes] at exceeds
  obtain ⟨failed, _, total, parts, _⟩ := exceeds 2 (by decide) (by decide) (by decide)
  exact ⟨fine, failed, total, parts, by cbv, by cbv, by cbv⟩

end ArchiveTraversal
