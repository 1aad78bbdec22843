import ArchiveTraversal.Proofs.Listing
import ArchiveTraversal.Proofs.Session.LockStep

/-!
How a session comes to a member. Whatever has been done on the way, with the members before it or
with the destinations of their data, as long as nothing has failed the session then stands on the
member, and has all of its data before it. So two sessions that have come to the same member have
the same data before them, though they read it in chunks of different sizes.
-/

namespace ArchiveTraversal

open Decoder

/-- So many more requests for a header, after the first, lead to this one, all giving headers. -/
inductive Decoder.LeadsTo : List HeaderItem → Nat → HeaderItem → Header → Prop
  | next {item : HeaderItem} {header : Header} {rest : List HeaderItem}
      (code : item.reply.code = 0) (given : item.header = some header) :
      LeadsTo (item :: rest) 0 item header
  | later {first item : HeaderItem} {before header : Header} {rest : List HeaderItem} {index : Nat}
      (code : first.reply.code = 0) (given : first.header = some before)
      (leads : LeadsTo rest index item header) : LeadsTo (first :: rest) (index + 1) item header

theorem Decoder.LeadsTo.unique {headers : List HeaderItem} {index : Nat} {item other : HeaderItem}
    {header otherHeader : Header} (leads : LeadsTo headers index item header)
    (leadsToo : LeadsTo headers index other otherHeader) :
    other = item ∧ otherHeader = header := by
  induction leads with
  | next _ given =>
      cases leadsToo with
      | next _ givenToo => exact ⟨rfl, Option.some.inj (givenToo.symm.trans given)⟩
  | later _ _ _ ih =>
      cases leadsToo with
      | later _ _ leadsToo => exact ih leadsToo

def Operation.moves : Operation → Bool
  | .advance => true
  | _ => false

namespace Session

/-- The session stands on a member, all of whose data is before it. -/
structure StandsOn (setup : Setup) (number : Nat) (item : HeaderItem) (header : Header)
    (session : Session) : Prop where
  setup : session.setup = setup
  number : session.handle.number = number
  cursor : session.cursor = .onMember
  current : session.current.map (·.header) = some header
  data : session.handle.data = item.data

theorem StandsOn.kindred {setup otherSetup : Setup} {number : Nat} {item : HeaderItem}
    {header : Header} {one other : Session} (stands : one.StandsOn setup number item header)
    (standsToo : other.StandsOn otherSetup number item header)
    (path : otherSetup.path = setup.path) : one.Kindred other :=
  ⟨by rw [Session.path, Session.path, stands.setup, standsToo.setup, path], standsToo.number.trans stands.number.symm,
    standsToo.cursor.trans stands.cursor.symm, standsToo.current.trans stands.current.symm,
    standsToo.data.trans stands.data.symm⟩

theorem StandsOn.onData {setup : Setup} {number : Nat} {item : HeaderItem} {header : Header}
    {session : Session} (stands : session.StandsOn setup number item header)
    (regular : header.info.isDirectory = false) : session.OnData :=
  .of_header stands.cursor stands.current regular

variable {session : Session} {host : Host}

theorem MovedTo.standsOn {item : HeaderItem} {header : Header}
    (movedTo : session.MovedTo item header (session.advance host).session) :
    (session.advance host).session.StandsOn session.setup session.handle.number item header :=
  ⟨session.advance_setup host, session.advance_number host, movedTo.cursor,
    movedTo.current, movedTo.data⟩

theorem Going.readChunk (going : session.Going) {bytes : Bytes}
    (read : (session.readChunk host).value = .ok bytes) : (session.readChunk host).session.Going := by
  have reads := session.readChunk_reads host
  generalize session.readChunk host = outcome at *
  cases reads with
  | start => cases read
  | exhausted => exact going
  | failed => cases read
  | directory => exact going
  | chunk => exact going
  | broken => cases read

theorem Going.forEachChunk {Gathered Cause : Type} (visitor : Visitor Gathered Cause)
    (gathered : Gathered) (going : session.Going)
    (readable : ∀ error, (session.forEachChunk visitor gathered host).value.1 ≠ .unreadable error) :
    (session.forEachChunk visitor gathered host).session.Going := by
  fun_induction Session.forEachChunk visitor gathered session host with
  | case1 => exact going
  | case2 => exact absurd rfl (readable _)
  | case3 _ _ _ _ _ empty => exact going.readChunk empty
  | case4 _ _ _ _ _ _ _ filled => exact going.readChunk filled
  | case5 _ _ _ _ _ _ _ filled _ _ ih => exact ih (going.readChunk filled) readable

structure Continues (before after : Session) : Prop where
  setup : after.setup = before.setup
  number : after.handle.number = before.handle.number

theorem forEachChunk_continues {Gathered Cause : Type} (visitor : Visitor Gathered Cause)
    (gathered : Gathered) (session : Session) (host : Host) :
    session.Continues (session.forEachChunk visitor gathered host).session :=
  ⟨session.forEachChunk_setup .., session.forEachChunk_number ..⟩

/-- What an operation that does not fail leaves: it has moved on if that is what was asked for, and
otherwise the same headers are still to come. -/
theorem Going.perform_fine (going : session.Going) {operation : Operation}
    (stays : operation.Stays)
    (fine : (session.perform host operation).answer.archiveError? = none) :
    ∃ after, (session.perform host operation).position = .inSession after ∧
      session.Continues after ∧
      if operation.moves then
        after.cursor = .exhausted ∨ ∃ item header, session.MovedTo item header after
      else after.Going ∧ after.handle.headers = session.handle.headers := by
  have still : session.Continues session := ⟨rfl, rfl⟩
  cases operation with
  | advance =>
      refine ⟨_, rfl, ⟨session.advance_setup host, session.advance_number host⟩, ?_⟩
      simp only [perform, stay] at fine
      cases value : (session.advance host).value with
      | error error => simp [value, Answer.archiveError?] at fine
      | ok moved =>
          cases moved with
          | some header =>
              obtain ⟨item, movedTo⟩ := movedTo_of_advance value
              exact .inr ⟨item, header, movedTo⟩
          | none =>
              have advances := session.advance_advances host
              refine .inl ?_
              generalize session.advance host = outcome at *
              cases advances with
              | exhausted past => exact past
              | failed => cases value
              | member => cases value
              | ended => rfl
              | broken => cases value
  | read =>
      refine ⟨_, rfl, ⟨session.readChunk_setup host, session.readChunk_number host⟩, ?_,
        session.readChunk_headers host⟩
      simp only [perform, stay] at fine
      split at fine
      · rename_i read
        exact going.readChunk read
      · cases fine
  | drain =>
      refine ⟨_, rfl, forEachChunk_continues .., going.forEachChunk _ _ fun error unreadable => ?_,
        session.forEachChunk_headers ..⟩
      simp only [perform, stay, drain, unreadable, Answer.archiveError?] at fine
      cases fine
  | copy sink state =>
      refine ⟨_, rfl, forEachChunk_continues .., going.forEachChunk _ _ fun error unreadable => ?_,
        session.forEachChunk_headers ..⟩
      simp only [perform, stay, copyTo, unreadable, Answer.archiveError?] at fine
      cases fine
  | skip =>
      have skips := session.skipEntry_skips host
      refine ⟨_, rfl, ?_⟩
      simp only [perform, stay] at fine
      generalize session.skipEntry host = outcome at *
      cases skips with
      | idle => exact ⟨still, going, rfl⟩
      | failed => cases fine
      | skipped => exact ⟨⟨rfl, rfl⟩, going, rfl⟩
      | broken => cases fine
  | close => cases stays
  | drop => cases stays
  | abandon => cases stays
  | _ => exact ⟨session, rfl, still, going, rfl⟩

theorem not_moved_past_end (past : session.cursor = .exhausted) {history : List Operation}
    {answers : List Answer} {before : Session} {between : Host} {header : Header}
    (stays : ∀ operation ∈ history, operation.Stays)
    (ran : runProgram history (.inSession session) host = (answers, .inSession before, between)) :
    (before.advance between).value ≠ .ok (some header) := by
  rw [(standstill_past_end past host).fixed history stays] at ran
  cases ran
  simp [advance, past]

theorem Going.leadsTo {history : List Operation} {answers : List Answer} {before : Session}
    {between : Host} {header : Header} (going : session.Going)
    (stays : ∀ operation ∈ history, operation.Stays)
    (ran : runProgram history (.inSession session) host = (answers, .inSession before, between))
    (fine : ∀ answer ∈ answers, answer.archiveError? = none)
    (moved : (before.advance between).value = .ok (some header)) :
    ∃ item, LeadsTo session.handle.headers (history.countP Operation.moves) item header ∧
      (before.advance between).session.StandsOn session.setup session.handle.number item header := by
  induction history generalizing session host answers with
  | nil =>
      cases ran
      obtain ⟨item, movedTo⟩ := movedTo_of_advance moved
      refine ⟨item, ?_, movedTo.standsOn⟩
      rw [movedTo.left]
      exact .next movedTo.code movedTo.given
  | cons operation rest ih =>
      have others : ∀ later ∈ rest, later.Stays :=
        fun later member => stays later (List.mem_cons_of_mem _ member)
      generalize performing : session.perform host operation = done at *
      have ran' : runProgram rest done.position done.host =
          (answers.tail, .inSession before, between) ∧ done.answer ∈ answers := by
        simp only [runProgram, Position.perform, performing, Prod.mk.injEq] at ran
        obtain ⟨rfl, position, host⟩ := ran
        exact ⟨by rw [List.tail_cons, ← position, ← host], List.mem_cons_self⟩
      obtain ⟨further, answered⟩ := ran'
      obtain ⟨after, position, continues, onward⟩ :=
        going.perform_fine (stays operation List.mem_cons_self)
          (performing ▸ fine done.answer answered)
      rw [performing] at position
      rw [position] at further
      have fineToo : ∀ answer ∈ answers.tail, answer.archiveError? = none :=
        fun answer member => fine answer (List.mem_of_mem_tail member)
      rw [List.countP_cons, ← continues.setup, ← continues.number]
      -- An operation uses up one header if it moves, and none otherwise.
      cases moves : operation.moves with
      | false =>
          rw [moves, if_neg (by simp)] at onward
          rw [← onward.2]
          exact ih onward.1 others further fineToo
      | true =>
          rw [moves, if_pos rfl] at onward
          rcases onward with past | ⟨first, before, movedTo⟩
          · exact absurd moved (not_moved_past_end past others further)
          · obtain ⟨item, leads, stands⟩ := ih (.inr movedTo.cursor) others further fineToo
            rw [movedTo.left]
            exact ⟨item, .later movedTo.code movedTo.given leads, stands⟩

theorem Going.advance_next (going : session.Going) {item : HeaderItem} {header : Header}
    {rest : List HeaderItem} (left : session.handle.headers = item :: rest)
    (code : item.reply.code = 0) (given : item.header = some header) (host : Host) :
    (session.advance host).value = .ok (some header) := by
  rw [going.advance_value, upcoming, left]
  simp [code, given]

theorem Going.leads {index : Nat} {item : HeaderItem} {header : Header} (going : session.Going)
    (leads : LeadsTo session.handle.headers index item header) (host : Host) :
    ∃ answers before between,
      runProgram (List.replicate index .advance) (.inSession session) host =
        (answers, .inSession before, between) ∧
      (∀ answer ∈ answers, answer.archiveError? = none) ∧
      (before.advance between).value = .ok (some header) := by
  generalize left : session.handle.headers = headers at leads
  induction leads generalizing session host with
  | next code given =>
      exact ⟨[], session, host, rfl, by simp, going.advance_next left code given host⟩
  | @later first item before header rest index code given _ ih =>
      have moved := going.advance_next left code given host
      obtain ⟨_, movedTo⟩ := movedTo_of_advance moved
      obtain ⟨answers, last, between, ran, fine, arrived⟩ := ih (.inr movedTo.cursor)
        (session.advance host).host (List.cons.inj (movedTo.left.symm.trans left)).2
      refine ⟨.member before :: answers, last, between, ?_, ?_, arrived⟩
      · simp only [List.replicate_succ, runProgram, Position.perform, perform, stay, moved, ran]
      · rintro answer (_ | ⟨_, member⟩)
        · rfl
        · exact fine answer member

end Session

/-- A session has been opened, and has come to the member of a number, counted from zero. On the way
any operations have been performed on it, as long as the archive has not failed at one of them. -/
inductive Arrives (path : Path) (options : ReaderOptions) (host : Host) (index : Nat) :
    Session → Host → Prop
  | along {fresh before : Session} {opened between : Host} {history : List Operation}
      {answers : List Answer} {header : Header}
      (opens : (Reader.new path options).openSession host = (.opened fresh, opened))
      (stays : ∀ operation ∈ history, operation.Stays)
      (ran : runProgram history (.inSession fresh) opened = (answers, .inSession before, between))
      (fine : ∀ answer ∈ answers, answer.archiveError? = none)
      (moves : history.countP Operation.moves = index)
      (moved : (before.advance between).value = .ok (some header)) :
      Arrives path options host index (before.advance between).session
        (before.advance between).host

section

variable {path : Path} {options : ReaderOptions} {host after : Host} {index : Nat}
  {session : Session}

/-- Where a session has arrived is told by the archive alone. -/
theorem Arrives.standsOn (arrives : Arrives path options host index session after) :
    ∃ script item header, Reader.Opens path host script ∧
      LeadsTo script.headers index item header ∧
      session.StandsOn ⟨path, options.normalized⟩ host.allocated item header := by
  obtain ⟨opens, stays, ran, fine, rfl, moved⟩ := arrives
  obtain ⟨script, opening, handle, _⟩ := Reader.opens_of_opened opens
  obtain ⟨_, _, _, _, setup, start⟩ := Reader.openSession_opened opens
  obtain ⟨item, leads, stands⟩ := Session.Going.leadsTo (.inl start) stays ran fine moved
  rw [setup, handle] at stands
  rw [handle] at leads
  exact ⟨script, item, _, opening, leads, stands⟩

theorem Reader.Opens.unique {script other : Script} (opens : Reader.Opens path host script)
    (opensToo : Reader.Opens path host other) : other = script := by
  obtain ⟨_, next⟩ := opens.next
  obtain ⟨_, nextToo⟩ := opensToo.next
  cases next.symm.trans nextToo
  rfl

theorem Arrives.kindred {otherOptions : ReaderOptions} {other : Session} {otherAfter : Host}
    (arrives : Arrives path options host index session after)
    (arrivesToo : Arrives path otherOptions host index other otherAfter) :
    session.Kindred other := by
  obtain ⟨script, item, header, opens, leads, stands⟩ := arrives.standsOn
  obtain ⟨_, _, _, opensToo, leadsToo, standsToo⟩ := arrivesToo.standsOn
  cases opens.unique opensToo
  obtain ⟨rfl, rfl⟩ := leads.unique leadsToo
  exact stands.kindred standsToo rfl

theorem Reader.Opens.arrives {script : Script} {item : HeaderItem} {header : Header}
    (opens : Reader.Opens path host script) (leads : LeadsTo script.headers index item header)
    (options : ReaderOptions) : ∃ session after, Arrives path options host index session after := by
  obtain ⟨fresh, opened, opening, headers, start⟩ := opens.openSession options
  rw [← headers] at leads
  obtain ⟨answers, before, between, ran, fine, moved⟩ :=
    Session.Going.leads (.inl start) leads opened
  have moves : (List.replicate index Operation.advance).countP Operation.moves = index := by
    simp [List.countP_replicate, Operation.moves]
  refine ⟨_, _, .along opening ?_ ran fine moves moved⟩
  intro operation member
  rw [(List.mem_replicate.mp member).2]
  trivial

theorem Arrives.withOptions (arrives : Arrives path options host index session after)
    (otherOptions : ReaderOptions) :
    ∃ other otherAfter, Arrives path otherOptions host index other otherAfter := by
  obtain ⟨_, _, _, opens, leads, _⟩ := arrives.standsOn
  exact opens.arrives leads otherOptions

theorem Arrives.onMember (arrives : Arrives path options host index session after) :
    session.setup = ⟨path, options.normalized⟩ ∧ session.cursor = .onMember := by
  obtain ⟨_, _, _, _, _, stands⟩ := arrives.standsOn
  exact ⟨stands.setup, stands.cursor⟩

end

end ArchiveTraversal
