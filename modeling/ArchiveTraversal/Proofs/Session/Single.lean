import ArchiveTraversal.Proofs.Session.Copying
import ArchiveTraversal.Proofs.Session.CurrentEntry

/-!
What a program does by single requests. To drain a member, or to copy it, is to read one chunk after
another; so for every program there is one that makes these reads one by one, is given the same
chunks, and leaves everything as that program does.
-/

namespace ArchiveTraversal

namespace Answer

def ofMany : Answer → Bool
  | .drained .. | .copied .. => true
  | _ => false

end Answer

/-- Reads that give these chunks, one after the other, and a last one that gives none. -/
def Log.ofReads (chunks : List Bytes) (last : List Answer) : Log :=
  (chunks.map Answer.chunk ++ last).map (Prod.mk .read)

/-- An operation and its answer, told by single requests. What has been copied is the beginning of
what has been read, and all of it unless the destination fails. -/
inductive Spells : Operation × Answer → Log → Prop
  | single {done : Operation × Answer} (one : done.2.ofMany = false) : Spells done [done]
  | drained (chunks : List Bytes) (failure : Option ArchiveError) :
      Spells (.drain, .drained chunks failure)
        (.ofReads chunks [failure.elim (.chunk []) .failed])
  | copied {State : Type} (sink : Sink State) (state : State) (chunks : List Bytes) :
      Spells (.copy sink state, .copied (.ok chunks.flatten.length) chunks.flatten)
        (.ofReads chunks [.chunk []])
  | unreadable {State : Type} (sink : Sink State) (state : State) (chunks : List Bytes)
      (error : ArchiveError) :
      Spells (.copy sink state, .copied (.error (.archive error)) chunks.flatten)
        (.ofReads chunks [.failed error])
  | cutShort {State : Type} (sink : Sink State) (state : State) {chunks : List Bytes}
      {written : Bytes} (error : IoError) (front : written <+: chunks.flatten) :
      Spells (.copy sink state, .copied (.error (.io error)) written) (.ofReads chunks [])

inductive Spelled : Log → Log → Prop
  | nil : Spelled [] []
  | cons {done : Operation × Answer} {rest plain more : Log} (spells : Spells done plain)
      (spelled : Spelled rest more) : Spelled (done :: rest) (plain ++ more)

/-- The operations of a log are answered as it says, and lead from one position to the other. -/
def Log.Runs (log : Log) (position : Position) (host : Host) (last : Position) (after : Host) :
    Prop :=
  runProgram (log.map Prod.fst) position host = (log.map Prod.snd, last, after)

namespace Log

variable {log more : Log} {position between last : Position} {host betweenHost after : Host}

theorem Runs.nil (position : Position) (host : Host) : Runs [] position host position host := rfl

theorem Runs.cons {operation : Operation} {answer : Answer}
    (first : position.perform host operation = ⟨answer, between, betweenHost⟩)
    (rest : Runs log between betweenHost last after) :
    Runs ((operation, answer) :: log) position host last after := by
  unfold Runs at rest ⊢
  rw [List.map_cons, List.map_cons, runProgram, first]
  simp only [rest]

theorem Runs.uncons {operation : Operation} {answer : Answer}
    (runs : Runs ((operation, answer) :: log) position host last after) :
    (position.perform host operation).answer = answer ∧
      Runs log (position.perform host operation).position (position.perform host operation).host
        last after := by
  unfold Runs at runs
  rw [List.map_cons, List.map_cons, runProgram, Prod.mk.injEq, List.cons.injEq] at runs
  obtain ⟨⟨told, answers⟩, ended⟩ := runs
  exact ⟨told, Prod.ext answers ended⟩

theorem Runs.append (first : Runs log position host between betweenHost)
    (second : Runs more between betweenHost last after) :
    Runs (log ++ more) position host last after := by
  induction log generalizing position host with
  | nil =>
      cases first
      exact second
  | cons done log ih =>
      obtain ⟨told, onward⟩ := first.uncons
      exact .cons (congrArg (Performed.mk · _ _) told) (ih onward)

end Log

/-- An operation, its answer and what it leaves can be had by single requests as well. -/
def Position.Singly (position : Position) (host : Host) (operation : Operation)
    (done : Performed) : Prop :=
  ∃ plain, Spells (operation, done.answer) plain ∧
    Log.Runs plain position host done.position done.host

namespace Session

variable {session after : Session} {host afterHost : Host} {chunks : List Bytes}

theorem ReadsTo.runs (reads : session.ReadsTo host chunks after afterHost) :
    Log.Runs (.ofReads chunks []) (.inSession session) host (.inSession after) afterHost := by
  induction reads with
  | nil => exact .nil _ _
  | cons read _ ih =>
      refine .cons ?_ ih
      simp only [Position.perform, perform, stay, read]

theorem ReadsTo.runs_last (reads : session.ReadsTo host chunks after afterHost) {answer : Answer}
    {ended : Session} {endedHost : Host}
    (last : after.perform afterHost .read = ⟨answer, .inSession ended, endedHost⟩) :
    Log.Runs (.ofReads chunks [answer]) (.inSession session) host (.inSession ended)
      endedHost := by
  have once : Log.Runs [(.read, answer)] (.inSession after) afterHost (.inSession ended)
      endedHost := .cons last (.nil _ _)
  have whole := reads.runs.append once
  rw [Log.ofReads, List.append_nil] at whole
  rw [Log.ofReads, List.map_append]
  exact whole

theorem perform_read_empty {ended : Session} {endedHost : Host}
    (empty : session.readChunk host = ⟨.ok [], ended, endedHost⟩) :
    session.perform host .read = ⟨.chunk [], .inSession ended, endedHost⟩ := by
  simp only [perform, stay, empty]

theorem perform_read_failed {ended : Session} {endedHost : Host} {error : ArchiveError}
    (failed : session.readChunk host = ⟨.error error, ended, endedHost⟩) :
    session.perform host .read = ⟨.failed error, .inSession ended, endedHost⟩ := by
  simp only [perform, stay, failed]

theorem drain_singly (session : Session) (host : Host) :
    Position.Singly (.inSession session) host .drain (session.perform host .drain) := by
  have follows : Follows collector [] session host _ :=
    forEachChunk_follows (fun _ => rfl) [] session host
  simp only [perform, stay, drain]
  generalize session.forEachChunk collector [] host = walked at *
  cases follows with
  | complete reads taken empty =>
      rw [collector_takes taken, List.append_nil, List.reverse_reverse]
      exact ⟨_, .drained _ none, reads.runs_last (perform_read_empty empty)⟩
  | @unreadable _ _ _ _ _ _ error reads taken failed =>
      rw [collector_takes taken, List.append_nil, List.reverse_reverse]
      exact ⟨_, .drained _ (some error), reads.runs_last (perform_read_failed failed)⟩
  | @refused _ _ _ _ _ _ cause => cases cause

theorem copy_singly {State : Type} (sink : Sink State) (state : State) (session : Session)
    (host : Host) : Position.Singly (.inSession session) host (.copy sink state)
      (session.perform host (.copy sink state)) := by
  have follows : Follows (copier sink.recording) (0, state, []) session host _ :=
    forEachChunk_follows (fun _ => rfl) (0, state, []) session host
  simp only [perform, stay, copyTo]
  generalize session.forEachChunk (copier sink.recording) (0, state, []) host = walked at *
  cases follows with
  | @complete chunks last _ _ _ _ reads taken empty =>
      obtain ⟨total, bytes⟩ := copier_takes taken
      have all : last.2.2.reverse.flatten = chunks.flatten := bytes
      rw [all, total, Nat.zero_add]
      exact ⟨_, .copied sink state chunks, reads.runs_last (perform_read_empty empty)⟩
  | @unreadable chunks last _ _ _ _ error reads taken failed =>
      obtain ⟨_, bytes⟩ := copier_takes taken
      have all : last.2.2.reverse.flatten = chunks.flatten := bytes
      rw [all]
      exact ⟨_, .unreadable sink state chunks error, reads.runs_last (perform_read_failed failed)⟩
  | @refused seen chunk between last _ _ error reads taken refuses =>
      obtain ⟨_, bytes⟩ := copier_takes taken
      obtain ⟨part, front, _, further⟩ := copier_refuses refuses
      have some : last.2.2.reverse.flatten = seen.flatten ++ part := by
        rw [further, bytes]
        rfl
      refine ⟨_, .cutShort sink state error ?_, reads.runs⟩
      rw [some, List.flatten_append, List.flatten_singleton]
      exact (List.prefix_append_right_inj _).mpr front

end Session

theorem Position.singly (position : Position) (host : Host) (operation : Operation) :
    position.Singly host operation (position.perform host operation) := by
  have itself (one : (position.perform host operation).answer.ofMany = false) :
      position.Singly host operation (position.perform host operation) :=
    ⟨_, .single one, .cons rfl (.nil _ _)⟩
  cases position with
  | atRest reader =>
      apply itself
      cases operation with
      | openSession =>
          simp only [Position.perform, Reader.perform]
          split <;> rfl
      | _ => rfl
  | inSession session =>
      cases operation with
      | drain => exact session.drain_singly host
      | copy sink state => exact session.copy_singly sink state host
      | advance =>
          apply itself
          simp only [Position.perform, Session.perform, Session.stay]
          split <;> rfl
      | read =>
          apply itself
          simp only [Position.perform, Session.perform, Session.stay]
          split <;> rfl
      | skip =>
          apply itself
          simp only [Position.perform, Session.perform, Session.stay]
          split <;> rfl
      | _ => exact itself rfl

theorem runProgram_singly (operations : List Operation) (position : Position) (host : Host) :
    ∃ plain, Spelled (operations.zip (runProgram operations position host).1) plain ∧
      Log.Runs plain position host (runProgram operations position host).2.1
        (runProgram operations position host).2.2 := by
  induction operations generalizing position host with
  | nil => exact ⟨[], .nil, .nil _ _⟩
  | cons operation rest ih =>
      obtain ⟨plain, spells, first⟩ := position.singly host operation
      obtain ⟨more, spelled, onward⟩ := ih (position.perform host operation).position
        (position.perform host operation).host
      exact ⟨plain ++ more, .cons spells spelled, first.append onward⟩

end ArchiveTraversal
