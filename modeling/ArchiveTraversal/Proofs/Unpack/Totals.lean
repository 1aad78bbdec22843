import ArchiveTraversal.Proofs.Journal
import ArchiveTraversal.Proofs.Unpack.Visits

/-!
What the records of a journal come to: how much has been read, which reports have been made, how
often data was found to be at its end, and how many members have been passed over.
-/

namespace ArchiveTraversal

open Decoder

namespace Record

def isSkip : Record → Bool
  | .event logged =>
      logged.level = .warn && (logged.message = "Skipping member" ||
        logged.message = "Skipping member, a directory exists at its path")
  | _ => false

def isPlain (entry : Record) : Bool :=
  entry.chunk?.isNone && !entry.isEnd && entry.report?.isNone && !entry.isSkip

theorem plain_of_raised {cancels : Bool} {entry : Record} (member : entry ∈ raised cancels) :
    entry.isPlain = true := by
  rw [eq_of_raised member]
  rfl

theorem plain_of_setup {entry : Record} (setup : entry.isSetup = true) : entry.isPlain = true := by
  rcases setup_cases setup with ⟨_, _, rfl⟩ | ⟨_, _, _, rfl⟩ <;> rfl

end Record

/-- What records come to: the bytes read, the reports made, the files of which the end was found,
and the members passed over. -/
structure Totals where
  read : Nat := 0
  reports : List (String × Nat) := []
  ends : Nat := 0
  skips : Nat := 0

namespace Totals

def of (records : List Record) : Totals where
  read := (records.filterMap Record.chunk?).sum
  reports := records.filterMap Record.report?
  ends := records.countP Record.isEnd
  skips := records.countP Record.isSkip

def add (first second : Totals) : Totals where
  read := first.read + second.read
  reports := first.reports ++ second.reports
  ends := first.ends + second.ends
  skips := first.skips + second.skips

theorem of_append (records later : List Record) :
    of (records ++ later) = (of records).add (of later) := by
  simp only [of, add, List.filterMap_append, List.sum_append, List.countP_append]

@[simp] theorem none_add (totals : Totals) : ({} : Totals).add totals = totals := by
  simp [add]

@[simp] theorem add_none (totals : Totals) : totals.add {} = totals := by
  simp [add]

theorem of_plain {records : List Record} (plain : ∀ entry ∈ records, entry.isPlain = true) :
    of records = {} := by
  induction records with
  | nil => rfl
  | cons entry rest ih =>
      have here := plain entry List.mem_cons_self
      have there := ih fun other member => plain other (List.mem_cons_of_mem entry member)
      simp only [Record.isPlain, Bool.and_eq_true, Option.isNone_iff_eq_none,
        Bool.not_eq_true'] at here
      obtain ⟨⟨⟨chunk, goesOn⟩, report⟩, kept⟩ := here
      rw [← there, of, of, List.filterMap_cons_none chunk, List.filterMap_cons_none report,
        List.countP_cons_of_neg (by simp [goesOn]), List.countP_cons_of_neg (by simp [kept])]

theorem of_data {records : List Record} (data : ∀ entry ∈ records, entry.isData = true) :
    of records = { read := (records.filterMap Record.chunk?).sum
                   ends := records.countP Record.isEnd } := by
  have quiet : ∀ entry ∈ records, entry.report? = none ∧ entry.isSkip = false := by
    intro entry member
    have is := data entry member
    cases entry with
    | event event => cases event <;> first | exact ⟨rfl, rfl⟩ | cases is
    | progress => cases is
    | call => exact ⟨rfl, rfl⟩
    | cancelRaised => exact ⟨rfl, rfl⟩
  have reports : records.filterMap Record.report? = [] := by
    apply List.filterMap_eq_nil_iff.mpr
    intro entry member
    exact (quiet entry member).1
  have skips : records.countP Record.isSkip = 0 := by
    apply List.countP_eq_zero.mpr
    intro entry member
    rw [(quiet entry member).2]
    exact Bool.false_ne_true
  rw [of, reports, skips]

end Totals

/-- A report gives all bytes that have been read by then, those before the records included. -/
def Timely (start : Nat) (records : List Record) : Prop :=
  ∀ early name total late, records = early ++ .progress name total :: late →
    total = start + (early.filterMap Record.chunk?).sum

namespace Timely

variable {start : Nat} {records later : List Record}

theorem append (first : Timely start records)
    (second : Timely (start + (records.filterMap Record.chunk?).sum) later) :
    Timely start (records ++ later) := by
  intro early name total late split
  rcases List.append_eq_append_iff.mp split with
    ⟨between, before, after⟩ | ⟨between, before, after⟩
  · rw [before, List.filterMap_append, List.sum_append, ← Nat.add_assoc]
    exact second between name total late after
  · cases between with
    | nil =>
        rw [List.append_nil] at before
        rw [← before]
        simpa using second [] name total late after.symm
    | cons entry rest =>
        cases after
        exact first early name total rest before

theorem of_no_report (silent : records.filterMap Record.report? = []) : Timely start records := by
  intro early name total late split
  have reported : (name, total) ∈ records.filterMap Record.report? := by
    rw [split]
    simp [Record.report?]
  rw [silent] at reported
  cases reported

theorem of_report (name : String) (total : Nat) : Timely total [.progress name total] := by
  intro early other sum late split
  cases early with
  | nil =>
      cases split
      rfl
  | cons entry rest => simp at split

end Timely

/-- What happens to a host comes to these totals, and reports are made in time. -/
def Host.Told (start : Nat) (before after : Host) (totals : Totals) : Prop :=
  ∃ records, before.Adds after records ∧ Totals.of records = totals ∧ Timely start records

namespace Host

variable {start : Nat} {before between after : Host} {records : List Record}
  {totals further : Totals}

theorem Told.trans (first : Told start before between totals)
    (second : Told (start + totals.read) between after further) :
    Told start before after (totals.add further) := by
  obtain ⟨records, adds, rfl, timely⟩ := first
  obtain ⟨later, addsToo, rfl, timelyToo⟩ := second
  exact ⟨records ++ later, adds.trans addsToo, Totals.of_append .., timely.append timelyToo⟩

theorem Adds.told (adds : before.Adds after records)
    (plain : ∀ entry ∈ records, entry.isPlain = true) : Told start before after {} := by
  have none := Totals.of_plain plain
  exact ⟨records, adds, none, .of_no_report (congrArg Totals.reports none)⟩

theorem Clears.told (clears : before.Clears after) : Told start before after {} := by
  obtain ⟨paths, adds⟩ := clears
  apply adds.told
  intro entry member
  obtain ⟨path, _, rfl⟩ := List.mem_map.mp member
  rfl

theorem told_of_skip (host : Host) (start : Nat) (event : Event)
    (skip : (Record.event event).isSkip = true) (small : (Record.event event).chunk? = none)
    (goesOn : (Record.event event).isEnd = false) :
    Told start host (host.event event) { skips := 1 } := by
  refine ⟨_, host.event_adds event, ?_, .of_no_report rfl⟩
  rw [Totals.of, List.filterMap_cons_none small, List.countP_singleton, List.countP_singleton, skip,
    goesOn]
  rfl

theorem Told.plain_first (first : Told start before between {})
    (second : Told start between after totals) : Told start before after totals := by
  have whole := first.trans second
  rwa [Totals.none_add] at whole

theorem Told.plain_last (first : Told start before between totals)
    (second : Told (start + totals.read) between after {}) : Told start before after totals := by
  have whole := first.trans second
  rwa [Totals.add_none] at whole

end Host

theorem Session.Going.advance_told {session : Session} (going : session.Going) (host : Host)
    (start : Nat) : Host.Told start host (session.advance host).host {} := by
  obtain ⟨cancels, event, tells, adds⟩ := going.advance_adds host
  apply adds.told
  generalize (session.advance host).value = value at tells
  intro entry member
  rw [List.cons_append, List.mem_cons, List.mem_append, List.mem_singleton] at member
  rcases member with called | flag | told
  · rw [called]
    rfl
  · exact Record.plain_of_raised flag
  · rw [told]
    cases tells <;> rfl

theorem Session.close_told (session : Session) (host : Host) (start : Nat) :
    Host.Told start host (session.close host).2.2 {} := by
  obtain ⟨event, tells, adds⟩ := session.close_adds host
  apply adds.told
  intro entry member
  rcases List.mem_pair.mp member with called | told
  · rw [called]
    rfl
  · rw [told]
    cases tells <;> rfl

theorem Reader.openSession_told (path : Path) (options : ReaderOptions) (host : Host)
    (start : Nat) : Host.Told start host ((new path options).openSession host).2 {} := by
  obtain ⟨records, adds, setups⟩ := openSession_adds path options host
  apply adds.told
  intro entry member
  exact Record.plain_of_setup (setups entry member)

end ArchiveTraversal
