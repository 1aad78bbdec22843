import ArchiveTraversal.Proofs.Unpack.Transfers

/-!
What becomes of a member while the cancel flag goes up. The flag is looked at before each header and
before each chunk, so the step in which it goes up is the last one that asks the decoder for
anything. What the journal shows after it is what this step has still to tell, and what is still
written is at most the chunk that was on its way.
-/

namespace ArchiveTraversal

open Decoder

/-- How a run winds up after the step in which its flag has gone up: with what is still recorded,
with what is still written, and with which result. -/
inductive WindsUp (number : Nat) :
    Record → List Record → List Write → Except UnpackError Tally → Prop
  | ended (path : Path) (entries : Nat) (tally : Tally) :
      WindsUp number (.call number .nextHeader) [.event (.ended path entries)] [] (.ok tally)
  | unreadable (path : Path) (status : Status) (reason : Reason) :
      WindsUp number (.call number .nextHeader) [.event (.headerFailed path status reason)] []
        (.error (.archive (.reading path .header reason)))
  | prepared (index : Nat) (header : Header) (events : List Event) :
      WindsUp number (.call number .nextHeader)
        (.event (.headerRead index header.filename header.size) :: events.map .event) []
        (.error .cancelled)
  | obstructed (index : Nat) (header : Header) (events : List Event) (cause : IoError) :
      WindsUp number (.call number .nextHeader)
        (.event (.headerRead index header.filename header.size) :: events.map .event) []
        (.error (.io cause))
  | broken (capacity : Nat) (path : Path) (reason : Reason) :
      WindsUp number (.call number (.readData capacity)) [.event (.dataFailed path reason)] []
        (.error (.archive (.reading path .data reason)))
  | exceeded (capacity size total bound : Nat) (exceeds : bound < total) :
      WindsUp number (.call number (.readData capacity)) [.event (.chunkRead size)] []
        (.error (.sizeLimitExceeded total bound))
  | written (capacity : Nat) (write : Write) (something : 0 < write.size) :
      WindsUp number (.call number (.readData capacity)) [.event (.chunkRead write.size)] [write]
        (.error .cancelled)
  | finished (capacity : Nat) (name : String) (total : Nat) (again : Bool) :
      WindsUp number (.call number (.readData capacity))
        (.event (.chunkRead 0) :: .event (.memberWritten name) :: .progress name total ::
          raised again) []
        (.error .cancelled)
  | reported (name : String) (total : Nat) :
      WindsUp number (.progress name total) [] [] (.error .cancelled)

theorem WindsUp.calls {number : Nat} {step : Record} {tail : List Record} {more : List Write}
    {result : Except UnpackError Tally} (winds : WindsUp number step tail more result) :
    tail.filterMap Record.call? = [] := by
  have quiet : ∀ events : List Event, (events.map Record.event).filterMap Record.call? = [] := by
    intro events
    rw [List.filterMap_map]
    exact List.filterMap_eq_nil_iff.mpr fun _ _ => rfl
  cases winds with
  | prepared index header events => exact quiet (.headerRead _ _ _ :: events)
  | obstructed index header events => exact quiet (.headerRead _ _ _ :: events)
  | finished _ _ _ again => cases again <;> rfl
  | _ => rfl

theorem WindsUp.at_most_one {number : Nat} {step : Record} {tail : List Record} {more : List Write}
    {result : Except UnpackError Tally} (winds : WindsUp number step tail more result) :
    more = [] ∨ ∃ write, more = [write] := by
  cases winds with
  | written _ write => exact .inr ⟨write, rfl⟩
  | _ => exact .inl rfl

/-- The flag goes up for the first time, all chunks before that having been written, and the run
winds up with its last member. -/
def Raises (number : Nat) (records : List Record) (earlier last : List Write)
    (result : Except UnpackError Tally) : Prop :=
  ∃ before step tail kept more, records = before ++ step :: .cancelRaised :: tail ∧
    .cancelRaised ∉ before ++ [step] ∧ last = kept ++ more ∧
    (before ++ [step]).filterMap Record.chunk? = (earlier ++ kept).map Write.size ∧
    WindsUp number step tail more result

theorem Raises.later {number : Nat} {first records : List Record}
    {wrote earlier last : List Write} {result : Except UnpackError Tally}
    (quiet : .cancelRaised ∉ first)
    (sizes : first.filterMap Record.chunk? = wrote.map Write.size)
    (raises : Raises number records earlier last result) :
    Raises number (first ++ records) (wrote ++ earlier) last result := by
  obtain ⟨before, step, tail, kept, more, split, lowered, written, sizesToo, winds⟩ := raises
  refine ⟨first ++ before, step, tail, kept, more, ?_, ?_, written, ?_, winds⟩
  · rw [split, List.append_assoc]
  · rw [List.append_assoc, List.mem_append]
    rintro (early | late)
    · exact quiet early
    · exact lowered late
  · rw [List.append_assoc, List.filterMap_append, sizes, sizesToo, List.append_assoc,
      ← List.map_append]

inductive LastRead : List Record → List Bytes → Walk UnpackError → Prop
  | failed (path : Path) (reason : Reason) :
      LastRead [.event (.dataFailed path reason)] [] (.unreadable (.reading path .data reason))
  | exceeded (size total bound : Nat) (exceeds : bound < total) :
      LastRead [.event (.chunkRead size)] [] (.stopped (.sizeLimitExceeded total bound))
  | chunk {bytes : Bytes} (something : 0 < bytes.length) :
      LastRead [.event (.chunkRead bytes.length)] [bytes] (.stopped .cancelled)
  | ended : LastRead [.event (.chunkRead 0)] [] .complete

def Heeds (number : Nat) (before after : Host) (kept : List Bytes) (walk : Walk UnpackError) :
    Prop :=
  ∃ records, before.Adds after records ∧ (after.cancelled = false → .cancelRaised ∉ records) ∧
    (walk = .complete → records.filterMap Record.chunk? = kept.map List.length) ∧
    (after.cancelled = true → ∃ earlier capacity tail seen more,
      records = earlier ++ .call number (.readData capacity) :: .cancelRaised :: tail ∧
      .cancelRaised ∉ earlier ∧ kept = seen ++ more ∧
      earlier.filterMap Record.chunk? = seen.map List.length ∧ LastRead tail more walk)

theorem Heeds.of_last {number capacity : Nat} {before after : Host} {cancels : Bool}
    {event : Event} {kept : List Bytes} {walk : Walk UnpackError}
    (adds : before.Adds after
      (.call number (.readData capacity) :: raised cancels ++ [.event event]))
    (flag : after.cancelled = cancels) (last : cancels = true → LastRead [.event event] kept walk)
    (complete : walk = .complete → event = .chunkRead 0 ∧ kept = []) :
    Heeds number before after kept walk := by
  refine ⟨_, adds, ?_, ?_, ?_⟩
  · intro lowered
    rw [← flag, lowered]
    simp [raised]
  · intro ends
    obtain ⟨nothing, none⟩ := complete ends
    rw [nothing, none, List.cons_append, List.filterMap_cons_none rfl, List.filterMap_append,
      Record.chunks_raised]
    rfl
  · intro up
    rw [flag] at up
    subst up
    exact ⟨[], capacity, [.event event], [], kept, rfl, by simp, rfl, rfl, last rfl⟩

theorem Heeds.cons {number capacity : Nat} {before between after : Host} {chunk : Bytes}
    {kept : List Bytes} {walk : Walk UnpackError} (something : 0 < chunk.length)
    (adds : before.Adds between
      [.call number (.readData capacity), .event (.chunkRead chunk.length)])
    (heeds : Heeds number between after kept walk) :
    Heeds number before after (chunk :: kept) walk := by
  have size : Record.chunk? (.event (.chunkRead chunk.length)) = some chunk.length := by
    obtain ⟨more, length⟩ := Nat.exists_eq_add_of_lt something
    rw [Nat.zero_add] at length
    rw [length]
    rfl
  obtain ⟨records, further, lowered, complete, up⟩ := heeds
  refine ⟨_, adds.trans further, ?_, ?_, ?_⟩
  · intro down
    simpa using lowered down
  · intro ends
    rw [List.cons_append, List.filterMap_cons_none rfl, List.cons_append, List.nil_append,
      List.filterMap_cons_some size, complete ends]
    rfl
  · intro raised
    obtain ⟨earlier, capacityThen, tail, seen, more, split, quiet, same, sizes, last⟩ := up raised
    refine ⟨.call number (.readData capacity) :: .event (.chunkRead chunk.length) :: earlier,
      capacityThen, tail, chunk :: seen, more, by rw [split]; rfl, by simpa using quiet,
      by rw [same]; rfl, ?_, last⟩
    rw [List.filterMap_cons_none rfl, List.filterMap_cons_some size, sizes]
    rfl

namespace UnpackJob

variable {job : UnpackJob} {tally next : Tally} {session : Session} {host : Host}

theorem writer_halts {job : UnpackJob} {host : Host} (up : host.cancelled = true) :
    job.writer.halt host = some .cancelled := by
  simp only [writer, up, ↓reduceIte]

theorem forEachChunk_raised (job : UnpackJob) (written : Written) (session : Session)
    (up : host.cancelled = true) :
    session.forEachChunk job.writer written host =
      ⟨(.stopped .cancelled, written), session, host⟩ := by
  rw [Session.forEachChunk]
  simp only [writer_halts up]

theorem forEachChunk_heeds (job : UnpackJob) (written : Written) (onData : session.OnData)
    (lowered : host.cancelled = false) :
    ∃ kept,
      (session.forEachChunk job.writer written host).value.2.chunks =
        kept.reverse ++ written.chunks ∧
      Heeds session.handle.number host (session.forEachChunk job.writer written host).host kept
        (session.forEachChunk job.writer written host).value.1 := by
  fun_induction Session.forEachChunk job.writer written session host with
  | case1 written session host cause halts =>
      simp only [writer, lowered, Bool.false_eq_true, ↓reduceIte] at halts
      cases halts
  | case2 written session host _ _ error failed =>
      obtain ⟨cancels, event, tells, adds, flag⟩ := onData.readChunk_tells host
      rw [show (session.readChunk host).value = _ from failed] at tells
      rw [lowered, Bool.false_or] at flag
      cases tells
      refine ⟨[], rfl, .of_last adds flag (fun _ => .failed _ _) ?_⟩
      intro complete
      cases complete
  | case3 written session host _ _ empty =>
      obtain ⟨cancels, event, tells, adds, flag⟩ := onData.readChunk_tells host
      rw [show (session.readChunk host).value = _ from empty] at tells
      rw [lowered, Bool.false_or] at flag
      cases tells
      exact ⟨[], rfl, .of_last adds flag (fun _ => .ended) fun _ => ⟨rfl, rfl⟩⟩
  | case4 written session host _ _ byte more filled last cause refuses =>
      obtain ⟨cancels, event, tells, adds, flag⟩ := onData.readChunk_tells host
      rw [show (session.readChunk host).value = _ from filled] at tells
      rw [lowered, Bool.false_or] at flag
      obtain ⟨same, bound, _, exceeds, reason⟩ := writer_refuses refuses
      rw [same, reason]
      cases tells
      refine ⟨[], rfl, .of_last adds flag (fun _ => .exceeded _ _ _ exceeds) ?_⟩
      intro complete
      cases complete
  | case5 written session host _ read byte more filled next accepted ih =>
      obtain ⟨cancels, event, tells, adds, flag⟩ := onData.readChunk_tells host
      have stays := (onData.readChunk_ok filled).2.2.2.2
      have number := session.readChunk_number host
      have chunks : next.chunks = (byte :: more) :: written.chunks :=
        (writer_takes (.cons accepted (.nil next))).1
      rw [show (session.readChunk host).value = _ from filled] at tells
      rw [lowered, Bool.false_or] at flag
      cases tells
      cases up : read.host.cancelled with
      | true =>
          -- The flag stops the walk before its next read.
          rw [forEachChunk_raised job next read.session up]
          refine ⟨[byte :: more], chunks, .of_last adds flag (fun _ => .chunk (by simp)) ?_⟩
          intro complete
          cases complete
      | false =>
          have same : cancels = false := flag.symm.trans up
          subst same
          obtain ⟨kept, last, heeds⟩ := ih stays up
          rw [number] at heeds
          refine ⟨(byte :: more) :: kept, ?_, heeds.cons (by simp) adds⟩
          rw [last, chunks]
          simp

/-- What a raised flag makes of a result that would let the run go on. -/
def halted : Except UnpackError Tally → Except UnpackError Tally
  | .ok _ => .error .cancelled
  | .error error => .error error

/-- A member that is met under a raised flag is prepared, and its data left alone. -/
theorem treat_raised (job : UnpackJob) (visit : Visit) (up : visit.host.cancelled = true) :
    ∃ events : List Event, visit.host.Adds (job.treat visit).host (events.map .event) ∧
      (job.treat visit).host.cancelled = true ∧ job.writesOf visit = [] ∧
      (halted (job.treat visit).value = .error .cancelled ∨
        ∃ cause, (job.treat visit).value = .error (.io cause)) := by
  rcases job.treat_cases visit with
    ⟨value, after, treated, readies, nowhere, ends⟩ | ⟨location, ready, treated, readies, found⟩
  · obtain ⟨events, adds, _⟩ := readies.tells
    rw [treated]
    refine ⟨events, adds, readies.flag.trans up, writesOf_of_nowhere job nowhere, ?_⟩
    rcases ends with ⟨next, ok, _⟩ | failed
    · exact .inl (congrArg halted ok)
    · exact .inr failed
  · obtain ⟨events, adds, _⟩ := readies.tells
    have halts := forEachChunk_raised job { total := visit.tally.bytes } visit.session
      (readies.flag.trans up)
    rw [treated, writesOf_of_target job found, walk, fillFile, halts]
    exact ⟨events, adds, readies.flag.trans up, rfl, .inl rfl⟩

/-- What a member records that is met under a lowered flag. If the flag has gone up, the run winds
up, whatever came of the member. -/
def Treated (job : UnpackJob) (visit : Visit) (outcome : Outcome (Except UnpackError Tally)) :
    Prop :=
  ∃ records, visit.host.Adds outcome.host records ∧
    (outcome.host.cancelled = false → .cancelRaised ∉ records ∧
      ∀ next, outcome.value = .ok next →
        records.filterMap Record.chunk? = (job.writesOf visit).map Write.size) ∧
    (outcome.host.cancelled = true →
      Raises visit.session.handle.number records [] (job.writesOf visit) (halted outcome.value))

theorem quiet_events (events : List Event) : Record.cancelRaised ∉ events.map .event := by
  simp

theorem sizes_of_preparation {events : List Event}
    (preparation : ∀ event ∈ events, event.isPreparation = true) :
    (events.map Record.event).filterMap Record.chunk? = [] := by
  apply List.filterMap_eq_nil_iff.mpr
  intro entry member
  obtain ⟨event, logged, rfl⟩ := List.mem_map.mp member
  exact Event.chunk?_of_preparation (preparation event logged)

theorem Treated.of_ready {visit : Visit} {ready : Host} {records : List Record}
    {outcome : Outcome (Except UnpackError Tally)} (readies : visit.host.Readies ready)
    (adds : ready.Adds outcome.host records)
    (lowered : outcome.host.cancelled = false → .cancelRaised ∉ records ∧
      ∀ next, outcome.value = .ok next →
        records.filterMap Record.chunk? = (job.writesOf visit).map Write.size)
    (up : outcome.host.cancelled = true →
      Raises visit.session.handle.number records [] (job.writesOf visit) (halted outcome.value)) :
    job.Treated visit outcome := by
  obtain ⟨events, logged, preparation⟩ := readies.tells
  have silent := sizes_of_preparation preparation
  refine ⟨_, logged.trans adds, ?_, ?_⟩
  · intro down
    obtain ⟨quiet, sizes⟩ := lowered down
    constructor
    · rw [List.mem_append]
      rintro (early | late)
      · exact quiet_events events early
      · exact quiet late
    · intro next ok
      rw [List.filterMap_append, silent, List.nil_append, sizes next ok]
  · intro raised
    have whole : Raises _ _ ([] ++ []) _ _ := (up raised).later (quiet_events events) silent
    exact whole

theorem halted_report (job : UnpackJob) (name : String) (tally : Tally) (host : Host) :
    halted (job.report name tally host).1 = .error .cancelled := by
  unfold report
  dsimp only
  split <;> rfl

theorem raises_of_last {number capacity : Nat} {location : Location} {earlier tail : List Record}
    {seen more : List Bytes} {writes : List Write} {result : Except UnpackError Tally}
    (quiet : .cancelRaised ∉ earlier)
    (sizes : earlier.filterMap Record.chunk? = seen.map List.length)
    (written : writes = (seen ++ more).map (Write.mk location))
    (winds : WindsUp number (.call number (.readData capacity)) tail
      (more.map (Write.mk location)) result) :
    Raises number (earlier ++ .call number (.readData capacity) :: .cancelRaised :: tail) []
      writes result := by
  refine ⟨earlier, _, tail, seen.map (Write.mk location), more.map (Write.mk location), rfl, ?_,
    by rw [written, List.map_append], ?_, winds⟩
  · simpa using quiet
  · rw [List.nil_append, List.filterMap_append, sizes, List.map_map]
    exact List.append_nil _

/-- The observer itself raises the flag, after all data has been written. -/
theorem raises_of_report {number total : Nat} {name : String} {records : List Record}
    {writes : List Write} (quiet : .cancelRaised ∉ records)
    (sizes : records.filterMap Record.chunk? = writes.map Write.size) :
    Raises number
      (records ++ [.event (.memberWritten name)] ++ .progress name total :: raised true) [] writes
      (.error .cancelled) := by
  refine ⟨records ++ [.event (.memberWritten name)], .progress name total, [], writes, [], rfl,
    by simpa using quiet, (List.append_nil _).symm, ?_, .reported _ _⟩
  rw [List.nil_append, List.append_assoc, List.filterMap_append, sizes]
  exact List.append_nil _

theorem fillFile_treated {visit : Visit} {location : Location} {ready : Host}
    (readies : visit.host.Readies ready) (lowered : visit.host.cancelled = false)
    (found : visit.host.target? job.output visit.info = some (location, ready))
    (onData : visit.session.OnData) :
    job.Treated visit
      (job.fillFile visit.info.path location visit.tally visit.session ready) := by
  obtain ⟨kept, chunks, records, adds, down, complete, up⟩ :=
    forEachChunk_heeds job { total := visit.tally.bytes } onData (readies.flag.trans lowered)
  have written : job.writesOf visit = kept.map (Write.mk location) := by
    rw [writesOf_of_target job found, walk, chunks, List.append_nil, List.reverse_reverse]
  have told : ready.Adds (job.filled location visit.tally visit.session ready) records := adds
  have fills := job.fillFile_fills visit.tally visit.session ready visit.info.path location
  generalize job.fillFile visit.info.path location visit.tally visit.session ready = outcome at *
  cases fills with
  | unreadable ends =>
      apply Treated.of_ready readies told
      · exact fun lowered => ⟨down lowered, fun _ ok => by cases ok⟩
      · intro raised
        obtain ⟨earlier, capacity, tail, seen, more, split, quiet, same, sizes, last⟩ := up raised
        rw [show (visit.session.forEachChunk _ _ _).value.1 = _ from ends] at last
        rw [split]
        cases last
        exact raises_of_last quiet sizes (written.trans (congrArg _ same)) (.broken ..)
  | stopped ends =>
      apply Treated.of_ready readies told
      · exact fun lowered => ⟨down lowered, fun _ ok => by cases ok⟩
      · intro raised
        obtain ⟨earlier, capacity, tail, seen, more, split, quiet, same, sizes, last⟩ := up raised
        rw [show (visit.session.forEachChunk _ _ _).value.1 = _ from ends] at last
        rw [split]
        -- The limit or the flag has stopped the walk. Only the flag lets the chunk be kept.
        cases last with
        | exceeded _ _ _ exceeds =>
            exact raises_of_last quiet sizes (written.trans (congrArg _ same))
              (.exceeded _ _ _ _ exceeds)
        | chunk something =>
            exact raises_of_last quiet sizes (written.trans (congrArg _ same))
              (.written _ ⟨location, _⟩ something)
  | complete ends =>
      have walked : (visit.session.forEachChunk job.writer { total := visit.tally.bytes }
        ready).value.1 = .complete := ends
      have sizes := complete walked
      rw [walked] at up
      have wrote := told.trans (Host.event_adds _ (.memberWritten visit.info.path))
      have reported := wrote.trans
        (job.report_adds (job.counted visit.tally visit.session ready) _ visit.info.path)
      have flag : (job.report visit.info.path (job.counted visit.tally visit.session ready)
            ((job.filled location visit.tally visit.session ready).event
              (.memberWritten visit.info.path))).2.cancelled =
          ((visit.session.forEachChunk job.writer { total := visit.tally.bytes }
            ready).host.cancelled || _) := Host.raiseIf_cancelled ..
      generalize (job.observer (job.counted visit.tally visit.session ready).files visit.info.path
        (job.counted visit.tally visit.session ready).bytes).raisesCancel = again at *
      have all : (job.writesOf visit).map Write.size = kept.map List.length := by
        rw [written, List.map_map]
        rfl
      apply Treated.of_ready readies reported
      · intro lowered
        obtain ⟨low, once⟩ := Bool.or_eq_false_iff.mp (flag.symm.trans lowered)
        subst once
        refine ⟨by simpa [raised] using down low, fun _ _ => ?_⟩
        rw [List.append_assoc, List.filterMap_append, sizes, all]
        exact List.append_nil _
      · intro isUp
        rw [halted_report]
        cases during : (visit.session.forEachChunk job.writer { total := visit.tally.bytes }
            ready).host.cancelled with
        | true =>
            obtain ⟨earlier, capacity, tail, seen, more, split, quiet, same, sizes, last⟩ :=
              up during
            cases last
            have whole : Raises visit.session.handle.number _ [] _ _ :=
              raises_of_last quiet sizes (written.trans (congrArg _ same))
                (.finished capacity visit.info.path
                  (job.counted visit.tally visit.session ready).bytes again)
            rw [split]
            simpa using whole
        | false =>
            rw [isUp, during, Bool.false_or] at flag
            subst flag
            exact raises_of_report (down during) (sizes.trans all.symm)

theorem treat_treated (job : UnpackJob) (visit : Visit) (lowered : visit.host.cancelled = false)
    (onData : visit.info.isDirectory = false → visit.session.OnData) :
    job.Treated visit (job.treat visit) := by
  rcases job.treat_cases visit with
    ⟨value, after, treated, readies, nowhere, _⟩ | ⟨location, ready, treated, readies, found⟩
  · rw [treated]
    apply Treated.of_ready readies (.refl after)
    · intro _
      exact ⟨by simp, fun _ _ => by rw [writesOf_of_nowhere job nowhere]; rfl⟩
    · intro up
      cases (readies.flag.trans lowered).symm.trans up
  · rw [treated]
    exact fillFile_treated readies lowered found (onData (treat_of_target job found).1)

theorem meets_treated (job : UnpackJob) (tally : Tally) {header : Header} (going : session.Going)
    (lowered : host.cancelled = false)
    (moved : (session.advance host).value = .ok (some header)) :
    let visit := meets tally session host header
    ∃ records, host.Adds (job.treat visit).host records ∧
      ((job.treat visit).host.cancelled = false → .cancelRaised ∉ records ∧
        ∀ next, (job.treat visit).value = .ok next →
          records.filterMap Record.chunk? = (job.writesOf visit).map Write.size) ∧
      ((job.treat visit).host.cancelled = true →
        Raises session.handle.number records [] (job.writesOf visit)
          (halted (job.treat visit).value)) := by
  intro visit
  obtain ⟨_, movedTo⟩ := Session.movedTo_of_advance moved
  obtain ⟨cancels, event, tells, asked, flag⟩ := going.advance_tells host
  rw [moved] at tells
  rw [lowered, Bool.false_or] at flag
  cases tells with
  | member index =>
      cases cancels with
      | true =>
          obtain ⟨events, adds, up, nothing, ends⟩ := job.treat_raised visit flag
          refine ⟨_, asked.trans adds, ?_, ?_⟩
          · intro down
            cases up.symm.trans down
          · intro _
            refine ⟨[], _, _, [], [], rfl, by simp, nothing, rfl, ?_⟩
            rcases ends with stopped | ⟨cause, failed⟩
            · rw [stopped]
              exact .prepared index header events
            · rw [failed]
              exact .obstructed index header events cause
      | false =>
          obtain ⟨records, adds, down, up⟩ := job.treat_treated visit flag movedTo.onData
          refine ⟨_, asked.trans adds, ?_, ?_⟩
          · intro stays
            obtain ⟨quiet, sizes⟩ := down stays
            exact ⟨by simpa [raised] using quiet, sizes⟩
          · intro isUp
            have winds := up isUp
            rw [show visit.session.handle.number = _ from session.advance_number host] at winds
            have quiet : .cancelRaised ∉ .call session.handle.number .nextHeader ::
                raised false ++
                  [.event (.headerRead index header.filename header.size)] := by
              simp [raised]
            have whole : Raises _ _ ([] ++ []) _ _ := winds.later quiet rfl
            exact whole

end UnpackJob

end ArchiveTraversal
