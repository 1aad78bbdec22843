import ArchiveTraversal.Proofs.Decoder.Answers
import ArchiveTraversal.Proofs.Session.Twins

/-!
Members passed one after the other. A session that asks for nothing but the next member goes
through the headers of its decoder in their order, one call for each, and leaves all else as it is.
What the decoder says of the archive as a whole, its format and its filters, is then what the latest
of these headers to speak of it has said.
-/

namespace ArchiveTraversal

open Decoder

namespace Decoder

def HeaderItem.Gives (item : HeaderItem) (header : Header) : Prop :=
  item.reply.code = 0 ∧ item.header = some header

/-- What the latest of some headers to speak of a matter says of it, or what was said at first. -/
def latest {Matter : Type} (speaks : HeaderItem → Option Matter) (first : Matter)
    (items : List HeaderItem) : Matter :=
  (items.filterMap speaks).getLast?.getD first

theorem latest_cons {Matter : Type} (speaks : HeaderItem → Option Matter) (first : Matter)
    (item : HeaderItem) (rest : List HeaderItem) :
    latest speaks first (item :: rest) = latest speaks ((speaks item).getD first) rest := by
  unfold latest
  cases spoken : speaks item with
  | none => rw [List.filterMap_cons_none spoken, Option.getD_none]
  | some matter =>
      rw [List.filterMap_cons_some spoken, List.getLast?_cons, Option.getD_some, Option.getD_some]

structure Handle.Asked (handle : Handle) (count : Nat) (after : Handle) : Prop where
  script : after.script = handle.script
  headers : after.headers = handle.headers.drop count
  format : after.format = latest HeaderItem.format handle.format (handle.headers.take count)
  filters : after.filters = latest HeaderItem.filters handle.filters (handle.headers.take count)

theorem Handle.Asked.after_next {handle after : Handle} {count : Nat}
    (asked : handle.nextHeader.2.Asked count after) : handle.Asked (count + 1) after := by
  obtain ⟨script, headers, format, filters⟩ := asked
  cases left : handle.headers with
  | nil =>
      simp only [nextHeader, left, List.drop_nil, List.take_nil] at script headers format filters
      constructor
      · exact script
      · rw [headers, left, List.drop_nil]
      · rw [format, left, List.take_nil]
      · rw [filters, left, List.take_nil]
  | cons item rest =>
      simp only [nextHeader, left] at script headers format filters
      constructor
      · exact script
      · rw [headers, left, List.drop_succ_cons]
      · rw [format, left, List.take_succ_cons, latest_cons]
      · rw [filters, left, List.take_succ_cons, latest_cons]

theorem Handle.asked_after (handle : Handle) (count : Nat) :
    handle.Asked count (handle.after (List.replicate count .nextHeader)) := by
  induction count generalizing handle with
  | zero => exact ⟨rfl, rfl, rfl, rfl⟩
  | succ count ih => exact (ih handle.nextHeader.2).after_next

theorem passed_over (wanted : Header → Prop) [DecidablePred wanted] (items : List HeaderItem) :
    ∃ passed headers rest, items = passed ++ rest ∧
      List.Forall₂ HeaderItem.Gives passed headers ∧ (∀ header ∈ headers, ¬ wanted header) ∧
      ∀ item ∈ rest.head?, ∀ header, item.Gives header → wanted header := by
  induction items with
  | nil => exact ⟨[], [], [], rfl, .nil, by simp, by simp⟩
  | cons item rest ih =>
      by_cases goesOn : ∃ header, item.Gives header ∧ ¬ wanted header
      · obtain ⟨header, gives, unwanted⟩ := goesOn
        obtain ⟨passed, headers, later, split, give, others, stops⟩ := ih
        refine ⟨item :: passed, header :: headers, later, by rw [split, List.cons_append],
          .cons gives give, ?_, stops⟩
        rintro other (_ | ⟨_, member⟩)
        · exact unwanted
        · exact others other member
      · refine ⟨[], [], item :: rest, rfl, .nil, by simp, ?_⟩
        rintro other ⟨⟩ header gives
        by_contra unwanted
        exact goesOn ⟨header, gives, unwanted⟩

end Decoder

namespace Session

/-- What a request for the next member comes to, by the headers that are left. -/
inductive Hears (path : Path) : List HeaderItem → Except ArchiveError (Option Header) → Prop
  | member {item : HeaderItem} {rest : List HeaderItem} {header : Header}
      (gives : item.Gives header) : Hears path (item :: rest) (.ok (some header))
  | ended {rest : List HeaderItem} (ends : ∀ item ∈ rest.head?, item.reply.code = 1) :
      Hears path rest (.ok none)
  | broken {item : HeaderItem} {rest : List HeaderItem} (goesOn : item.reply.code ≠ 1)
      (useless : ∀ header, ¬ item.Gives header) : Hears path (item :: rest)
        (.error (.reading path .header (item.reply.diagnostic.reason item.reply.code)))

inductive Passes : Session → Host → List Header → Session → Host → Prop
  | nil (session : Session) (host : Host) : Passes session host [] session host
  | cons {session after : Session} {host afterHost : Host} {header : Header}
      {headers : List Header} (moved : (session.advance host).value = .ok (some header))
      (passes : Passes (session.advance host).session (session.advance host).host headers after
        afterHost) : Passes session host (header :: headers) after afterHost

structure Requested (session : Session) (host : Host) (count : Nat) (after : Session)
    (afterHost : Host) : Prop where
  setup : after.setup = session.setup
  handle : after.handle = session.handle.after (List.replicate count .nextHeader)
  calls : host.Makes session.handle.number (List.replicate count .nextHeader) afterHost
  kept : host.Extends afterHost

variable {session between after : Session} {host betweenHost afterHost : Host}
  {headers : List Header}

theorem Requested.refl (session : Session) (host : Host) :
    session.Requested host 0 session host :=
  ⟨rfl, rfl, .of_calls _ rfl, .refl host⟩

theorem Requested.number {count : Nat} (requested : session.Requested host count after afterHost) :
    after.handle.number = session.handle.number := by
  rw [requested.handle, Handle.number_after]

theorem Requested.trans {count more : Nat}
    (first : session.Requested host count between betweenHost)
    (second : between.Requested betweenHost more after afterHost) :
    session.Requested host (count + more) after afterHost := by
  constructor
  · exact second.setup.trans first.setup
  · rw [second.handle, first.handle, List.replicate_add]
    exact List.foldl_append.symm
  · rw [List.replicate_add]
    exact first.calls.trans (first.number ▸ second.calls)
  · exact first.kept.trans second.kept

theorem Going.requested (going : session.Going) (host : Host) :
    session.Requested host 1 (session.advance host).session (session.advance host).host :=
  ⟨session.advance_setup host, going.advance_handle host, (going.consults host).asked,
    session.advance_extends host⟩

theorem Going.advance_hears (going : session.Going) (host : Host) :
    Hears session.path session.handle.headers (session.advance host).value := by
  rw [going.advance_value]
  unfold upcoming
  cases session.handle.headers with
  | nil => exact .ended (by simp)
  | cons item rest =>
      dsimp only
      split
      · rename_i ended
        exact .ended (by simp [ended])
      · rename_i goesOn
        split
        · rename_i header given
          split
          · rename_i fine
            exact .member ⟨fine, given⟩
          · rename_i code
            exact .broken goesOn fun _ gives => code gives.1
        · rename_i given
          exact .broken goesOn fun _ gives => by cases given.symm.trans gives.2

theorem going_of_advance {header : Header}
    (moved : (session.advance host).value = .ok (some header)) : session.Going := by
  have advances := session.advance_advances host
  generalize session.advance host = outcome at *
  cases advances with
  | member going => exact going
  | exhausted => cases moved
  | failed => cases moved
  | ended => cases moved
  | broken => cases moved

theorem Passes.going (passes : session.Passes host headers after afterHost)
    (going : session.Going) : after.Going := by
  induction passes with
  | nil => exact going
  | cons moved _ ih =>
      obtain ⟨_, movedTo⟩ := movedTo_of_advance moved
      exact ih (.inr movedTo.cursor)

theorem Passes.requested (passes : session.Passes host headers after afterHost)
    (going : session.Going) : session.Requested host headers.length after afterHost := by
  induction passes with
  | nil session host => exact .refl session host
  | cons moved _ ih =>
      obtain ⟨_, movedTo⟩ := movedTo_of_advance moved
      have whole := (going.requested _).trans (ih (.inr movedTo.cursor))
      rwa [Nat.add_comm] at whole

theorem Going.passes {items rest : List HeaderItem} (going : session.Going)
    (left : session.handle.headers = items ++ rest)
    (give : List.Forall₂ HeaderItem.Gives items headers) (host : Host) :
    ∃ after afterHost, session.Passes host headers after afterHost ∧
      after.handle.headers = rest := by
  induction give generalizing session host with
  | nil => exact ⟨session, host, .nil session host, left⟩
  | @cons item header items headers gives _ ih =>
      have moved := going.advance_next left gives.1 gives.2 host
      obtain ⟨_, movedTo⟩ := movedTo_of_advance moved
      obtain ⟨after, afterHost, passes, onward⟩ := ih (.inr movedTo.cursor)
        (List.cons.inj (movedTo.left.symm.trans left)).2 (session.advance host).host
      exact ⟨after, afterHost, .cons moved passes, onward⟩

/-- The way past members that are not wanted, to where it ends one way or another. -/
structure Searches (wanted : Header → Prop) (session : Session) (host : Host)
    (passed : List HeaderItem) (headers : List Header) (after : Session) (afterHost : Host) :
    Prop where
  split : session.handle.headers = passed ++ after.handle.headers
  give : List.Forall₂ HeaderItem.Gives passed headers
  others : ∀ header ∈ headers, ¬ wanted header
  passes : session.Passes host headers after afterHost
  going : after.Going
  requested : session.Requested host (passed.length + 1) (after.advance afterHost).session
    (after.advance afterHost).host
  hears : Hears session.path after.handle.headers (after.advance afterHost).value
  stops : ∀ header, (after.advance afterHost).value = .ok (some header) → wanted header

theorem Going.searches (wanted : Header → Prop) [DecidablePred wanted] (going : session.Going)
    (host : Host) : ∃ passed headers after afterHost,
      session.Searches wanted host passed headers after afterHost := by
  obtain ⟨passed, headers, rest, split, give, others, stops⟩ :=
    passed_over wanted session.handle.headers
  obtain ⟨after, afterHost, passes, left⟩ := going.passes split give host
  have onward := passes.going going
  have requested := passes.requested going
  have hears := onward.advance_hears afterHost
  rw [path, requested.setup] at hears
  refine ⟨passed, headers, after, afterHost, by rw [left, split], give, others, passes, onward, ?_,
    hears, ?_⟩
  · rw [give.length_eq]
    exact requested.trans (onward.requested afterHost)
  · intro header found
    obtain ⟨item, movedTo⟩ := movedTo_of_advance found
    exact stops item (by rw [← left, movedTo.left]; rfl) header ⟨movedTo.code, movedTo.given⟩

end Session

end ArchiveTraversal
