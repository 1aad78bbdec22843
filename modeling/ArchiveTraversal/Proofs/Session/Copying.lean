import ArchiveTraversal.Proofs.Decoder.Yield

/-!
Copying to a destination of any kind. It may take a buffer in pieces, be interrupted, take nothing
or fail, anywhere in any chunk. What has arrived there is the beginning of what has been read, and
the reads are those of someone who asks for one chunk after another; so where a destination gives
out, the session can be read on from the chunk after.
-/

namespace ArchiveTraversal.Session

section

variable {Gathered Cause : Type} {visitor : Visitor Gathered Cause} {gathered : Gathered}
  {session : Session} {host : Host}

inductive ReadsTo : Session → Host → List Bytes → Session → Host → Prop
  | nil (session : Session) (host : Host) : ReadsTo session host [] session host
  | cons {session after : Session} {host afterHost : Host} {byte : UInt8} {bytes : Bytes}
      {chunks : List Bytes} (read : (session.readChunk host).value = .ok (byte :: bytes))
      (further : ReadsTo (session.readChunk host).session (session.readChunk host).host chunks after
        afterHost) : ReadsTo session host ((byte :: bytes) :: chunks) after afterHost

/-- A walk that is not halted consists of reads. It ends with one that gives no chunk, or with a
chunk that the visitor refuses. -/
inductive Follows (visitor : Visitor Gathered Cause) (gathered : Gathered) (session : Session)
    (host : Host) : Outcome (Walk Cause × Gathered) → Prop
  | complete {chunks : List Bytes} {last : Gathered} {after ended : Session}
      {afterHost endedHost : Host} (reads : session.ReadsTo host chunks after afterHost)
      (taken : visitor.Takes gathered chunks last)
      (empty : after.readChunk afterHost = ⟨.ok [], ended, endedHost⟩) :
      Follows visitor gathered session host ⟨(.complete, last), ended, endedHost⟩
  | unreadable {chunks : List Bytes} {last : Gathered} {after ended : Session}
      {afterHost endedHost : Host} {error : ArchiveError}
      (reads : session.ReadsTo host chunks after afterHost)
      (taken : visitor.Takes gathered chunks last)
      (failed : after.readChunk afterHost = ⟨.error error, ended, endedHost⟩) :
      Follows visitor gathered session host ⟨(.unreadable error, last), ended, endedHost⟩
  | refused {seen : List Bytes} {chunk : Bytes} {between last : Gathered} {after : Session}
      {afterHost : Host} {cause : Cause}
      (reads : session.ReadsTo host (seen ++ [chunk]) after afterHost)
      (taken : visitor.Takes gathered seen between)
      (refuses : visitor.visit between chunk = (last, some cause)) :
      Follows visitor gathered session host ⟨(.stopped cause, last), after, afterHost⟩

theorem Follows.cons {next : Gathered} {byte : UInt8} {more : Bytes}
    {outcome : Outcome (Walk Cause × Gathered)}
    (read : (session.readChunk host).value = .ok (byte :: more))
    (accepted : visitor.visit gathered (byte :: more) = (next, none))
    (follows : Follows visitor next (session.readChunk host).session (session.readChunk host).host
      outcome) : Follows visitor gathered session host outcome := by
  cases follows with
  | complete reads taken empty => exact .complete (.cons read reads) (.cons accepted taken) empty
  | unreadable reads taken failed =>
      exact .unreadable (.cons read reads) (.cons accepted taken) failed
  | refused reads taken refuses => exact .refused (.cons read reads) (.cons accepted taken) refuses

theorem forEachChunk_follows (goesOn : ∀ host, visitor.halt host = none) (gathered : Gathered)
    (session : Session) (host : Host) :
    Follows visitor gathered session host (session.forEachChunk visitor gathered host) := by
  fun_induction forEachChunk visitor gathered session host with
  | case1 _ _ host _ halts => cases (goesOn host).symm.trans halts
  | case2 gathered session host _ _ error failed =>
      exact .unreadable (.nil session host) (.nil gathered) (by rw [← failed])
  | case3 gathered session host _ _ empty =>
      exact .complete (.nil session host) (.nil gathered) (by rw [← empty])
  | case4 gathered session host _ _ byte more filled last cause refuses =>
      have reads : session.ReadsTo host ([] ++ [byte :: more]) _ _ := .cons filled (.nil _ _)
      exact .refused reads (.nil gathered) refuses
  | case5 gathered session host _ _ byte more filled next accepted ih =>
      exact ih.cons filled accepted

/-- A visitor that keeps less, or more, of the same is shown the same. -/
theorem forEachChunk_image {Image : Type} (visitor : Visitor Gathered Cause)
    (other : Visitor Image Cause) (image : Gathered → Image)
    (halts : ∀ host, other.halt host = visitor.halt host)
    (visits : ∀ gathered chunk, other.visit (image gathered) chunk =
      (image (visitor.visit gathered chunk).1, (visitor.visit gathered chunk).2))
    (gathered : Gathered) (session : Session) (host : Host) :
    let walked := session.forEachChunk visitor gathered host
    session.forEachChunk other (image gathered) host =
      ⟨(walked.value.1, image walked.value.2), walked.session, walked.host⟩ := by
  fun_induction forEachChunk visitor gathered session host with
  | case1 gathered session host cause halted =>
      rw [forEachChunk, halts, halted]
  | case2 gathered session host goesOn read error failed =>
      have value : (session.readChunk host).value = .error error := failed
      rw [forEachChunk_step _ _ other _ ((halts host).trans goesOn)]
      simp only [value]
      rfl
  | case3 gathered session host goesOn read empty =>
      have value : (session.readChunk host).value = .ok [] := empty
      rw [forEachChunk_step _ _ other _ ((halts host).trans goesOn)]
      simp only [value]
      rfl
  | case4 gathered session host goesOn read byte more filled last cause refuses =>
      have value : (session.readChunk host).value = .ok (byte :: more) := filled
      rw [forEachChunk_step _ _ other _ ((halts host).trans goesOn)]
      simp only [value, visits, refuses]
      rfl
  | case5 gathered session host goesOn read byte more filled next accepted ih =>
      have value : (session.readChunk host).value = .ok (byte :: more) := filled
      rw [forEachChunk_step _ _ other _ ((halts host).trans goesOn)]
      simp only [value, visits, accepted]
      exact ih

theorem ReadsTo.forEachChunk (goesOn : ∀ host, visitor.halt host = none) {chunks : List Bytes}
    {after : Session} {afterHost : Host} {last : Gathered}
    (reads : session.ReadsTo host chunks after afterHost)
    (taken : visitor.Takes gathered chunks last) :
    session.forEachChunk visitor gathered host = after.forEachChunk visitor last afterHost := by
  induction reads generalizing gathered with
  | nil =>
      cases taken
      rfl
  | @cons session _ host _ byte bytes _ read _ ih =>
      cases taken with
      | cons accepted taken =>
          rw [forEachChunk_step _ _ visitor _ (goesOn host)]
          simp only [read, accepted]
          exact ih taken

end

section

variable {session after : Session} {host afterHost : Host} {chunks : List Bytes}

theorem collector_takes_all (gathered chunks : List Bytes) :
    collector.Takes gathered chunks (chunks.reverse ++ gathered) := by
  induction chunks generalizing gathered with
  | nil => exact .nil gathered
  | cons chunk rest ih =>
      rw [List.reverse_cons, List.append_assoc]
      exact .cons rfl (ih (chunk :: gathered))

theorem ReadsTo.drain (reads : session.ReadsTo host chunks after afterHost) :
    let rest := after.drain afterHost
    session.drain host = ⟨(chunks ++ rest.value.1, rest.value.2), rest.session, rest.host⟩ := by
  have walked := reads.forEachChunk (fun _ => rfl) (collector_takes_all [] chunks)
  have shown := forEachChunk_image collector collector (fun gathered => gathered ++ chunks.reverse)
    (fun _ => rfl) (fun _ _ => rfl) [] after afterHost
  rw [List.append_nil] at walked
  unfold Session.drain
  dsimp only at shown ⊢
  rw [List.nil_append] at shown
  rw [walked, shown, List.reverse_append, List.reverse_reverse]

end

/-- A member is copied, from wherever a session stands, to a sink of any kind. What arrives is the
beginning of the chunks that are read. If the copy comes to the end of the data, all has arrived and
is counted; if a read fails, all that was read before it has arrived, and the error is that of the
read. If the sink gives out, it does so within the last chunk; the session can be read on from the
chunk after it, and draining it would give what has not been read. -/
theorem copyTo_follows_reads {State : Type} (sink : Sink State) (state : State)
    (session : Session) (host : Host) :
    let copied := session.copyTo sink.recording (state, []) host
    let arrived := copied.value.2.2.reverse.flatten
    session.copyTo sink state host =
        ⟨(copied.value.1, copied.value.2.1), copied.session, copied.host⟩ ∧
      ∃ chunks after afterHost, session.ReadsTo host chunks after afterHost ∧
        arrived <+: chunks.flatten ∧
        match copied.value.1 with
        | .ok count =>
            arrived = chunks.flatten ∧ count = chunks.flatten.length ∧
              after.readChunk afterHost = ⟨.ok [], copied.session, copied.host⟩
        | .error (.archive error) =>
            arrived = chunks.flatten ∧
              after.readChunk afterHost = ⟨.error error, copied.session, copied.host⟩ ∧
              (CopyError.archive error).toUnpack = .archive error
        | .error (.io error) =>
            (∃ earlier last part, chunks = earlier ++ [last] ∧
              arrived = earlier.flatten ++ part ∧ part <+: last ∧ part ≠ last) ∧
            copied.session = after ∧ copied.host = afterHost ∧ copied.session.cursor = .onMember ∧
            (session.drain host).value =
              (chunks ++ (copied.session.drain copied.host).value.1,
                (copied.session.drain copied.host).value.2) ∧
            (CopyError.io error).toUnpack = .io error := by
  intro copied arrived
  have plain := forEachChunk_image (copier sink.recording) (copier sink)
    (fun gathered => (gathered.1, gathered.2.1)) (fun _ => rfl)
    (fun gathered chunk => (copier_visit sink gathered chunk).1) (0, state, []) session host
  have follows : Follows (copier sink.recording) (0, state, []) session host _ :=
    forEachChunk_follows (fun _ => rfl) _ _ _
  have stands : ∀ cause,
      (session.forEachChunk (copier sink.recording) (0, state, []) host).value.1 = .stopped cause →
      (session.forEachChunk (copier sink.recording) (0, state, []) host).session.cursor =
        .onMember :=
    fun _ stopped => (forEachChunk_stopped (fun _ => rfl) stopped).2
  dsimp only at plain
  simp only [arrived, copied, copyTo, plain]
  generalize session.forEachChunk (copier sink.recording) (0, state, []) host = walked at *
  -- A walk ends in one of three ways, and these are the three results of a copy.
  cases follows with
  | @complete chunks last _ _ _ _ reads taken empty =>
      obtain ⟨total, bytes⟩ := copier_takes taken
      have all : last.2.2.reverse.flatten = chunks.flatten := bytes
      refine ⟨trivial, _, _, _, reads, ?_, all, ?_, empty⟩
      · rw [all]
      · rw [total, Nat.zero_add]
  | @unreadable chunks last _ _ _ _ _ reads taken failed =>
      obtain ⟨_, bytes⟩ := copier_takes taken
      have all : last.2.2.reverse.flatten = chunks.flatten := bytes
      refine ⟨trivial, _, _, _, reads, ?_, all, failed, rfl⟩
      rw [all]
  | @refused seen chunk between last after afterHost error reads taken refuses =>
      obtain ⟨_, bytes⟩ := copier_takes taken
      obtain ⟨part, front, short, further⟩ := copier_refuses refuses
      have some : last.2.2.reverse.flatten = seen.flatten ++ part := by
        rw [further, bytes]
        rfl
      refine ⟨trivial, _, _, _, reads, ?_, ⟨seen, chunk, part, rfl, some, front, short⟩, rfl, rfl,
        stands error rfl, congrArg Outcome.value reads.drain, rfl⟩
      rw [some, List.flatten_append]
      simpa using front

/-- A disk with room for three bytes, written to two bytes at a time, is full in the middle of the
second chunk. The fifth byte is still to be read. -/
example :
    let session : Session :=
      { setup := ⟨[0x78], { chunkSize := 2 }⟩, buffer := [],
        handle := { Decoder.Handle.ofScript 0 {} with
          data := [{ serving := .content [1, 2, 3, 4, 5] }] }
        current := some ⟨0, ⟨some [0x61], none, 5, true, 0o100644⟩⟩, cursor := .onMember }
    let disk : SinkLimits := { room := some 3 }
    let copied := session.copyTo disk.sink.recording ({}, []) {}
    copied.value.1 = .error (.io diskFull) ∧ copied.value.2.2.reverse.flatten = [1, 2, 3] ∧
      (copied.session.readChunk copied.host).value = .ok [5] := by
  cbv

end ArchiveTraversal.Session
