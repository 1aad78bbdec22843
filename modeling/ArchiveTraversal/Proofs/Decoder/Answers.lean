import ArchiveTraversal.Proofs.Journal.Growth
import ArchiveTraversal.Proofs.Listing

/-!
What a decoder answers to one call after another, and where it fails to give what it is asked for. A
session fails just where its decoder does: whoever goes on from one member to the next, or from one
chunk to the next, is told of the stage at which the decoder has failed, and of no other failure.
-/

namespace ArchiveTraversal

open Decoder

/-- The calls between opening and release. -/
def Decoder.Call.traverses : Call → Bool
  | .nextHeader | .readData _ | .skipData => true
  | _ => false

namespace Decoder.Handle

def next (handle : Handle) : Call → Handle
  | .nextHeader => handle.nextHeader.2
  | .readData capacity => (handle.readData capacity).2
  | .skipData => handle.skipData.2
  | _ => handle

/-- The stage at which the decoder fails to give what a call asks for: a header, unless it is the
end of the archive, or data, if only none. -/
def fault? (handle : Handle) : Call → Option ReadStage
  | .nextHeader =>
      let reply := handle.nextHeader.1
      if reply.code = 1 ∨ reply.code = 0 ∧ reply.lent.isSome then none else some .header
  | .readData capacity => if (handle.readData capacity).1.count < 0 then some .data else none
  | .skipData => if handle.skipData.1 = 0 then none else some .data
  | _ => none

def after (handle : Handle) (calls : List Call) : Handle := calls.foldl next handle

def faults (handle : Handle) : List Call → List ReadStage
  | [] => []
  | call :: rest => (handle.fault? call).toList ++ (handle.next call).faults rest

theorem number_next (handle : Handle) (call : Call) :
    (handle.next call).number = handle.number := by
  cases call with
  | nextHeader => exact handle.nextHeader_fields.1
  | readData capacity => exact (handle.readData_fields capacity).1
  | _ => rfl

theorem number_after (handle : Handle) (calls : List Call) :
    (handle.after calls).number = handle.number := by
  induction calls generalizing handle with
  | nil => rfl
  | cons call rest ih => exact (ih (handle.next call)).trans (handle.number_next call)

theorem faults_append (handle : Handle) (calls more : List Call) :
    handle.faults (calls ++ more) = handle.faults calls ++ (handle.after calls).faults more := by
  induction calls generalizing handle with
  | nil => rfl
  | cons call rest ih =>
      rw [List.cons_append, faults, faults, ih, List.append_assoc]
      rfl

theorem nextHeader_answer (handle : Handle) (reply : Reply) :
    (handle.answer reply).nextHeader = handle.nextHeader := by
  unfold nextHeader answer
  cases handle.headers <;> rfl

theorem readData_answer (handle : Handle) (reply : Reply) (capacity : Nat) :
    (handle.answer reply).readData capacity = handle.readData capacity := by
  unfold readData answer
  cases handle.data <;> rfl

theorem faults_answer (handle : Handle) (reply : Reply) (calls : List Call) :
    (handle.answer reply).faults calls = handle.faults calls := by
  induction calls generalizing handle with
  | nil => rfl
  | cons call rest ih =>
      cases call with
      | nextHeader => simp only [faults, fault?, next, nextHeader_answer]
      | readData capacity => simp only [faults, fault?, next, readData_answer]
      | skipData => rfl
      | _ => exact ih handle

theorem faults_opening (handle : Handle) (blockSize : Nat) (path : Path) (calls : List Call) :
    handle.faults (openingCalls blockSize path ++ calls) = handle.faults calls := rfl

/-- A decoder has been asked, between two hosts, and has failed at this stage or not at all. -/
def Answers (handle : Handle) (before : Host) (last : Handle) (after : Host)
    (stage? : Option ReadStage) : Prop :=
  ∃ calls, after.calls = before.calls ++ calls.map (Prod.mk handle.number) ∧
    handle.after calls = last ∧ handle.faults calls = stage?.toList

variable {handle middle last : Handle} {before between after : Host} {stage? : Option ReadStage}

theorem Answers.of_calls (same : after.calls = before.calls) :
    handle.Answers before handle after none := by
  refine ⟨[], ?_, rfl, rfl⟩
  rw [same, List.map_nil, List.append_nil]

theorem Answers.of_call {call : Call}
    (made : after.calls = before.calls ++ [(handle.number, call)]) :
    handle.Answers before (handle.next call) after (handle.fault? call) :=
  ⟨[call], made, rfl, List.append_nil _⟩

theorem Answers.sound_first (first : handle.Answers before middle between none)
    (second : middle.Answers between last after stage?) :
    handle.Answers before last after stage? := by
  obtain ⟨calls, made, rfl, sound⟩ := first
  obtain ⟨more, further, rfl, told⟩ := second
  rw [number_after] at further
  refine ⟨calls ++ more, ?_, List.foldl_append, ?_⟩
  · rw [further, made, List.map_append, List.append_assoc]
  · rw [faults_append, sound, told]
    rfl

theorem Answers.sound_last (first : handle.Answers before middle between stage?)
    (second : middle.Answers between last after none) :
    handle.Answers before last after stage? := by
  obtain ⟨calls, made, rfl, told⟩ := first
  obtain ⟨more, further, rfl, sound⟩ := second
  rw [number_after] at further
  refine ⟨calls ++ more, ?_, List.foldl_append, ?_⟩
  · rw [further, made, List.map_append, List.append_assoc]
  · rw [faults_append, sound, told]
    exact List.append_nil _

end Decoder.Handle

def ArchiveError.stage? : ArchiveError → Option ReadStage
  | .opening .. => none
  | .reading _ stage _ => some stage

def stageOf {Error Value : Type} (stage? : Error → Option ReadStage) :
    Except Error Value → Option ReadStage
  | .error error => stage? error
  | .ok _ => none

theorem stageOf_map {Error Value Image : Type} (stage? : Error → Option ReadStage)
    (change : Value → Image) (result : Except Error Value) :
    stageOf stage? (result.map change) = stageOf stage? result := by
  cases result <;> rfl

def Walk.stage? {Cause : Type} : Walk Cause → Option ReadStage
  | .unreadable error => error.stage?
  | _ => none

theorem Host.Adds.calls {before after : Host} {records : List Record}
    (adds : before.Adds after records) :
    after.calls = before.calls ++ records.filterMap Record.call? := by
  rw [Host.calls, adds, List.filterMap_append]
  rfl

def Host.Makes (before : Host) (number : Nat) (calls : List Call) (after : Host) : Prop :=
  after.calls = before.calls ++ calls.map (Prod.mk number)

section

variable {before between after : Host} {number : Nat} {calls more : List Call}

theorem Host.Makes.of_calls (number : Nat) (same : after.calls = before.calls) :
    before.Makes number [] after :=
  same.trans (List.append_nil _).symm

theorem Host.Makes.trans (first : before.Makes number calls between)
    (second : between.Makes number more after) : before.Makes number (calls ++ more) after := by
  rw [Makes, second, first, List.map_append, List.append_assoc]

end

namespace Session

variable {session : Session} {host : Host}

theorem calls_asked (session : Session) (host : Host) (event : Event) :
    ((session.asked host).event event).calls =
      host.calls ++ [(session.handle.number, .nextHeader)] :=
  (Host.event_quiet _ event).calls.trans ((Host.raiseIf_quiet ..).calls.trans (host.calls_call ..))

theorem calls_fetched (session : Session) (host : Host) (event : Event) :
    ((session.fetched host).event event).calls =
      host.calls ++ [(session.handle.number, .readData session.setup.options.chunkSize)] :=
  (Host.event_quiet _ event).calls.trans ((Host.raiseIf_quiet ..).calls.trans (host.calls_call ..))

theorem Going.advance_answers {answer : Except ArchiveError (Option Header)}
    (going : session.Going) (answered : (session.advance host).value = answer) :
    session.handle.Answers host (session.advance host).session.handle (session.advance host).host
      (stageOf ArchiveError.stage? answer) := by
  rw [← answered]
  have asked (event : Event) := Handle.Answers.of_call (session.calls_asked host event)
  have advances := session.advance_advances host
  generalize session.advance host = outcome at *
  cases advances with
  | exhausted past => exact absurd past going.not_exhausted
  | failed stopped => exact absurd stopped going.not_failed
  | member _ code given =>
      have sound : session.handle.fault? .nextHeader = none := by
        simp only [Handle.fault?, code, given]
        rfl
      rw [sound] at asked
      exact asked _
  | ended _ code =>
      have sound : session.handle.fault? .nextHeader = none := by
        simp only [Handle.fault?, code]
        rfl
      rw [sound] at asked
      exact asked _
  | broken _ goesOn useless =>
      have fault : session.handle.fault? .nextHeader = some .header := by
        apply if_neg
        rintro (ended | ⟨code, given⟩)
        · exact goesOn ended
        · rw [useless code] at given
          cases given
      rw [fault] at asked
      exact asked _

theorem readChunk_answers {answer : Except ArchiveError Bytes}
    (onMember : session.cursor = .onMember) (answered : (session.readChunk host).value = answer) :
    session.handle.Answers host (session.readChunk host).session.handle
      (session.readChunk host).host (stageOf ArchiveError.stage? answer) := by
  rw [← answered]
  have asked (event : Event) := Handle.Answers.of_call (session.calls_fetched host event)
  have reads := session.readChunk_reads host
  generalize session.readChunk host = outcome at *
  cases reads with
  | start fresh => cases onMember.symm.trans fresh
  | exhausted past => cases onMember.symm.trans past
  | failed stopped => cases onMember.symm.trans stopped
  | directory => exact .of_calls rfl
  | chunk _ enough =>
      have sound : session.handle.fault? (.readData session.setup.options.chunkSize) = none :=
        if_neg (Int.not_lt.mpr enough)
      rw [sound] at asked
      exact asked _
  | broken _ negative =>
      have fault : session.handle.fault? (.readData session.setup.options.chunkSize) =
          some .data := if_pos negative
      rw [fault] at asked
      exact asked _

theorem forEachChunk_answers {Gathered Cause : Type} {visitor : Visitor Gathered Cause}
    {gathered : Gathered} {way : Walk Cause} (onMember : session.cursor = .onMember)
    (ends : (session.forEachChunk visitor gathered host).value.1 = way) :
    session.handle.Answers host (session.forEachChunk visitor gathered host).session.handle
      (session.forEachChunk visitor gathered host).host way.stage? := by
  rw [← ends]
  clear ends
  fun_induction Session.forEachChunk visitor gathered session host with
  | case1 => exact .of_calls rfl
  | case2 _ _ _ _ _ _ failed => exact readChunk_answers onMember failed
  | case3 _ _ _ _ _ empty => exact readChunk_answers onMember empty
  | case4 _ _ _ _ _ _ _ filled => exact readChunk_answers onMember filled
  | case5 _ _ _ _ _ _ _ filled _ _ ih =>
      have answers := readChunk_answers onMember filled
      exact answers.sound_first (ih (readChunk_filled_cursor filled).2)

theorem Going.collectMembers_answers (going : session.Going) (host : Host) :
    session.handle.Answers host (session.collectMembers host).session.handle
      (session.collectMembers host).host
      (stageOf ArchiveError.stage? (session.collectMembers host).value) := by
  fun_induction Session.collectMembers session host with
  | case1 session host moved error failed => exact going.advance_answers failed
  | case2 session host moved ended => exact going.advance_answers ended
  | case3 session host moved header taken rest ih =>
      obtain ⟨_, movedTo⟩ := movedTo_of_advance taken
      have answers := going.advance_answers taken
      rw [stageOf_map]
      exact answers.sound_first (ih (.inr movedTo.cursor))

theorem collectMembers_fails {error : ArchiveError}
    (failed : (session.collectMembers host).value = .error error) :
    ∃ reason, error = .reading session.setup.path .header reason := by
  fun_induction Session.collectMembers session host with
  | case1 session host moved error broken =>
      cases failed
      exact advance_fails broken
  | case2 => cases failed
  | case3 session host moved header taken rest ih =>
      have value : rest.value = .error error := by
        cases value : rest.value with
        | error cause =>
            rw [value] at failed
            cases failed
            rfl
        | ok members =>
            rw [value] at failed
            cases failed
      rw [← session.advance_setup host]
      exact ih value

theorem close_answers (session : Session) (host : Host) :
    session.handle.Answers host session.handle (session.close host).2.2 none :=
  .of_call (session.calls_close host)

end Session

/-- The next decoder has been asked for all that any decoder has been asked for. With this script it
has failed at this stage, or not at all. -/
def Host.Faults (script : Script) (before after : Host) (stage? : Option ReadStage) : Prop :=
  ∃ calls, after.calls = before.calls ++ calls.map (Prod.mk before.allocated) ∧
    (Handle.ofScript before.allocated script).faults calls = stage?.toList

theorem Reader.faults_of_opened {path : Path} {options : ReaderOptions} {host between : Host}
    {session : Session}
    (opened : (new path options).openSession host = (.opened session, between)) :
    ∃ script, Opens path host script ∧ ∀ {last : Handle} {after : Host}
      {stage? : Option ReadStage}, session.handle.Answers between last after stage? →
        host.Faults script after stage? := by
  obtain ⟨script, opens, handle, begun⟩ := opens_of_opened opened
  refine ⟨script, opens, ?_⟩
  rintro last after stage? ⟨calls, made, -, told⟩
  rw [handle] at made told
  refine ⟨openingCalls options.normalized.blockSize path ++ calls, ?_, ?_⟩
  · rw [made, begun, List.map_append, ← List.append_assoc]
    rfl
  · rw [Handle.faults_opening, ← told]
    exact (Handle.faults_answer ..).symm

end ArchiveTraversal
