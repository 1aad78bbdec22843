import ArchiveTraversal.Proofs.Decoder.Data
import ArchiveTraversal.Proofs.Host

/-!
What the journal of a run tells: which reports have gone to the observer, and how many headers have
been asked for. Most of what an unpack does is minor in that it adds to neither.
-/

namespace ArchiveTraversal

def Record.report? : Record → Option (String × Nat)
  | .progress name total => some (name, total)
  | _ => none

def Record.isRequest : Record → Bool
  | .call _ .nextHeader => true
  | _ => false

def Record.isMinor (entry : Record) : Bool := entry.report?.isNone && !entry.isRequest

namespace Host

def reports (host : Host) : List (String × Nat) := host.journal.toList.filterMap Record.report?

def requests (host : Host) : Nat := host.journal.toList.countP Record.isRequest

def Murmurs (before after : Host) : Prop :=
  ∃ more, after.journal.toList = before.journal.toList ++ more ∧ ∀ entry ∈ more, entry.isMinor = true

theorem Murmurs.refl (host : Host) : host.Murmurs host := ⟨[], by simp, by simp⟩

theorem Murmurs.trans {before between after : Host} (first : before.Murmurs between)
    (second : between.Murmurs after) : before.Murmurs after := by
  obtain ⟨more, grown, minor⟩ := first
  obtain ⟨further, grownAgain, minorAgain⟩ := second
  refine ⟨more ++ further, by rw [grownAgain, grown, List.append_assoc], ?_⟩
  intro entry member
  rcases List.mem_append.mp member with early | late
  · exact minor entry early
  · exact minorAgain entry late

theorem Murmurs.reports {before after : Host} (murmurs : before.Murmurs after) :
    after.reports = before.reports := by
  obtain ⟨more, grown, minor⟩ := murmurs
  have none : more.filterMap Record.report? = [] := by
    apply List.filterMap_eq_nil_iff.mpr
    intro entry member
    have quiet := minor entry member
    simp only [Record.isMinor, Bool.and_eq_true, Option.isNone_iff_eq_none] at quiet
    exact quiet.1
  rw [Host.reports, Host.reports, grown, List.filterMap_append, none, List.append_nil]

theorem Murmurs.requests {before after : Host} (murmurs : before.Murmurs after) :
    after.requests = before.requests := by
  obtain ⟨more, grown, minor⟩ := murmurs
  have none : more.countP Record.isRequest = 0 := by
    apply List.countP_eq_zero.mpr
    intro entry member
    have quiet := minor entry member
    simp only [Record.isMinor, Bool.and_eq_true, Bool.not_eq_true'] at quiet
    simp [quiet.2]
  rw [Host.requests, Host.requests, grown, List.countP_append, none, Nat.add_zero]

theorem record_murmurs (host : Host) {entry : Record} (minor : entry.isMinor = true) :
    host.Murmurs (host.record entry) := by
  refine ⟨[entry], by simp [record], ?_⟩
  intro other member
  rw [List.mem_singleton.mp member]
  exact minor

theorem event_murmurs (host : Host) (event : Event) : host.Murmurs (host.event event) :=
  host.record_murmurs rfl

theorem raiseIf_murmurs (host : Host) (cancels : Bool) : host.Murmurs (host.raiseIf cancels) := by
  unfold raiseIf
  split
  · exact { host with cancelled := true }.record_murmurs rfl
  · exact .refl host

theorem call_nextHeader (host : Host) (number : Nat) :
    (host.call number .nextHeader).reports = host.reports ∧
      (host.call number .nextHeader).requests = host.requests + 1 := by
  constructor
  · simp [reports, call, record, Record.report?]
  · simp [requests, call, record, Record.isRequest]

theorem record_progress_requests (host : Host) (name : String) (total : Nat) :
    (host.record (.progress name total)).requests = host.requests := by
  simp [requests, record, Record.isRequest]

theorem Rearranged.murmurs {before after : Host} (rearranged : before.Rearranged after) :
    before.Murmurs after := by
  obtain ⟨events, logged⟩ := rearranged.journal
  refine ⟨_, logged, ?_⟩
  intro entry member
  obtain ⟨event, _, rfl⟩ := List.mem_map.mp member
  rfl

end Host

namespace Session

theorem fetched_murmurs (session : Session) (host : Host) : host.Murmurs (session.fetched host) := by
  have asked : host.Murmurs (session.call host (.readData session.setup.options.chunkSize)) :=
    host.record_murmurs rfl
  exact asked.trans (Host.raiseIf_murmurs ..)

theorem readChunk_murmurs (session : Session) (host : Host) :
    host.Murmurs (session.readChunk host).host := by
  have fetched := session.fetched_murmurs host
  have reads := session.readChunk_reads host
  generalize session.readChunk host = outcome at *
  cases reads with
  | start => exact .refl host
  | exhausted => exact .refl host
  | failed => exact .refl host
  | directory => exact .refl host
  | chunk => exact fetched.trans (Host.event_murmurs ..)
  | broken => exact fetched.trans (Host.event_murmurs ..)

theorem forEachChunk_murmurs {Gathered Cause : Type} (visitor : Visitor Gathered Cause)
    (gathered : Gathered) (session : Session) (host : Host) :
    host.Murmurs (session.forEachChunk visitor gathered host).host := by
  fun_induction forEachChunk visitor gathered session host with
  | case1 => exact .refl _
  | case2 => exact readChunk_murmurs ..
  | case3 => exact readChunk_murmurs ..
  | case4 => exact readChunk_murmurs ..
  | case5 _ _ _ _ _ _ _ _ _ _ ih => exact (readChunk_murmurs ..).trans ih

theorem close_murmurs (session : Session) (host : Host) :
    host.Murmurs (session.close host).2.2 := by
  have freed : host.Murmurs (session.call host .free) := host.record_murmurs rfl
  exact freed.trans (Host.event_murmurs ..)

theorem Going.advance_journal {session : Session} (going : session.Going) (host : Host) :
    (session.advance host).host.reports = host.reports ∧
      (session.advance host).host.requests = host.requests + 1 := by
  obtain ⟨reports, requests⟩ := host.call_nextHeader session.handle.number
  have heard : ∀ event,
      (session.call host .nextHeader).Murmurs ((session.asked host).event event) :=
    fun _ => (Host.raiseIf_murmurs ..).trans (Host.event_murmurs ..)
  have advances := session.advance_advances host
  generalize session.advance host = outcome at *
  cases advances with
  | exhausted past => exact absurd past going.not_exhausted
  | failed stopped => exact absurd stopped going.not_failed
  | member => exact ⟨(heard _).reports.trans reports, (heard _).requests.trans requests⟩
  | ended => exact ⟨(heard _).reports.trans reports, (heard _).requests.trans requests⟩
  | broken => exact ⟨(heard _).reports.trans reports, (heard _).requests.trans requests⟩

end Session

namespace Reader

theorem callAll_murmurs (host : Host) (number : Nat) {calls : List Decoder.Call}
    (minor : .nextHeader ∉ calls) : host.Murmurs (host.callAll number calls) := by
  refine ⟨_, host.callAll_journal number calls, ?_⟩
  intro entry member
  obtain ⟨made, called, rfl⟩ := List.mem_map.mp member
  cases made with
  | nextHeader => exact absurd called minor
  | _ => rfl

theorem acquire_murmurs (setup : Setup) (host : Host) :
    host.Murmurs (acquire setup host).2 := by
  have handed : ∀ {calls : List Decoder.Call}, .nextHeader ∉ calls →
      host.Murmurs (host.handedOut.callAll host.allocated calls) :=
    fun minor => callAll_murmurs host.handedOut host.allocated minor
  have acquires := acquire_acquires setup host
  generalize acquire setup host = outcome at *
  cases acquires with
  | obstructed => exact .refl host
  | unavailable => exact handed (by simp)
  | refused _ _ refuses => exact handed (by cases refuses <;> simp)
  | ready => exact handed (by simp [Decoder.openingCalls])

theorem openSession_murmurs (reader : Reader) (host : Host) :
    host.Murmurs (reader.openSession host).2 := by
  have released : host.Murmurs (reader.releaseStale host).2.2 := by
    cases reader with
    | closed setup buffer => exact .refl host
    | abandoned session =>
        exact (host.event_murmurs _).trans (session.close_murmurs _)
  have acquired := released.trans
    (acquire_murmurs (reader.releaseStale host).1 (reader.releaseStale host).2.2)
  unfold openSession
  dsimp only
  split
  · rename_i refused
    rw [refused] at acquired
    exact acquired
  · rename_i opened
    rw [opened] at acquired
    exact acquired.trans (Host.event_murmurs ..)

end Reader

end ArchiveTraversal
