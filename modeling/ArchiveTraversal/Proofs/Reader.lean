import ArchiveTraversal.Proofs.Decoder.Protocol
import ArchiveTraversal.Reader

/-!
What opening an archive comes to: the calls that it makes on the next decoder, and the handle that
it gets or the reason that it gets none.
-/

namespace ArchiveTraversal

open Decoder

namespace Host

def callAll (host : Host) (number : Nat) (calls : List Call) : Host :=
  calls.foldl (fun host made => host.call number made) host

/-- The host without its next decoder, if it has one, and a handle number further. -/
def handedOut (host : Host) : Host :=
  { host with decoders := host.decoders.tail, allocated := host.allocated + 1 }

theorem callAll_tree (host : Host) (number : Nat) (calls : List Call) :
    (host.callAll number calls).tree = host.tree := by
  induction calls generalizing host with
  | nil => rfl
  | cons made rest ih => exact ih (host.call number made)

theorem callAll_decoders (host : Host) (number : Nat) (calls : List Call) :
    (host.callAll number calls).decoders = host.decoders ∧
      (host.callAll number calls).allocated = host.allocated := by
  induction calls generalizing host with
  | nil => exact ⟨rfl, rfl⟩
  | cons made rest ih => exact ih (host.call number made)

theorem callAll_cancelled (host : Host) (number : Nat) (calls : List Call) :
    (host.callAll number calls).cancelled = host.cancelled := by
  induction calls generalizing host with
  | nil => rfl
  | cons made rest ih => exact ih (host.call number made)

theorem callAll_journal (host : Host) (number : Nat) (calls : List Call) :
    (host.callAll number calls).journal.toList =
      host.journal.toList ++ calls.map (Record.call number) := by
  induction calls generalizing host with
  | nil => simp [callAll]
  | cons made rest ih =>
      have first : (host.call number made).journal.toList =
          host.journal.toList ++ [.call number made] := by simp [call, record]
      have whole := ih (host.call number made)
      rw [first, List.append_assoc] at whole
      exact whole

theorem calls_callAll (host : Host) (number : Nat) (made : List Call) :
    (host.callAll number made).calls = host.calls ++ made.map (Prod.mk number) := by
  rw [calls, calls, callAll_journal, List.filterMap_append, List.filterMap_map]
  congr 1
  induction made with
  | nil => rfl
  | cons first rest ih => exact congrArg _ ih

end Host

namespace Reader

/-- The calls up to the one by which a decoder refuses to be set up, and its answer to that. -/
inductive Refuses (setup : Setup) (script : Script) : List Call → Reply → Prop
  | filters (refused : script.supportFilters.code < Status.warnCode) :
      Refuses setup script [.supportFilters] script.supportFilters
  | formats (filters : Status.warnCode ≤ script.supportFilters.code)
      (refused : script.supportFormats.code < Status.warnCode) :
      Refuses setup script [.supportFilters, .supportFormats] script.supportFormats
  | file (filters : Status.warnCode ≤ script.supportFilters.code)
      (formats : Status.warnCode ≤ script.supportFormats.code)
      (refused : script.openFile.code ≠ 0) :
      Refuses setup script
        [.supportFilters, .supportFormats, .openFile setup.options.blockSize setup.path]
        script.openFile

theorem prepare_refused {setup : Setup} {handle : Handle} {calls : List Call} {reply : Reply}
    (host : Host) (refuses : Refuses setup handle.script calls reply) :
    prepare setup handle host = (.error (reply.diagnostic.reason reply.code),
      host.callAll handle.number (calls ++ [.free])) := by
  cases refuses with
  | filters refused =>
      simp only [prepare, attempt, Int.not_le.mpr refused, decide_false, Bool.false_eq_true,
        ↓reduceIte]
      rfl
  | formats filters refused =>
      simp only [prepare, attempt, filters, decide_true, Int.not_le.mpr refused, decide_false,
        Bool.false_eq_true, ↓reduceIte]
      rfl
  | file filters formats refused =>
      have code : Status.ofCode handle.script.openFile.code ≠ .ok :=
        fun ok => refused ((Status.ofCode_eq_ok_iff _).mp ok)
      simp only [prepare, attempt, filters, formats, decide_true, code, decide_false,
        Bool.false_eq_true, ↓reduceIte]
      rfl

theorem prepare_ready {setup : Setup} {handle : Handle} (host : Host)
    (filters : Status.warnCode ≤ handle.script.supportFilters.code)
    (formats : Status.warnCode ≤ handle.script.supportFormats.code)
    (opened : handle.script.openFile.code = 0) :
    prepare setup handle host = (.ok (handle.answer handle.script.openFile),
      host.callAll handle.number
        [.supportFilters, .supportFormats, .openFile setup.options.blockSize setup.path]) := by
  have code : Status.ofCode handle.script.openFile.code = .ok :=
    (Status.ofCode_eq_ok_iff _).mpr opened
  simp only [prepare, attempt, filters, formats, code, decide_true, ↓reduceIte]
  rfl

/-- The ways to get a handle that is ready for its first header, or not to get one. -/
inductive Acquires (setup : Setup) (host : Host) : Except Reason Handle × Host → Prop
  | obstructed {reason : Reason} (blocked : obstacle host.tree setup.path = some reason) :
      Acquires setup host (.error reason, host)
  | unavailable (clear : obstacle host.tree setup.path = none)
      (nothing : ∀ script later, host.decoders ≠ some script :: later) :
      Acquires setup host (.error .noDecoder, host.handedOut.callAll host.allocated [.allocate])
  | refused {script : Script} {later : List (Option Script)} {calls : List Call} {reply : Reply}
      (clear : obstacle host.tree setup.path = none)
      (decoders : host.decoders = some script :: later) (refuses : Refuses setup script calls reply) :
      Acquires setup host (.error (reply.diagnostic.reason reply.code),
        host.handedOut.callAll host.allocated (.allocate :: calls ++ [.free]))
  | ready {script : Script} {later : List (Option Script)}
      (clear : obstacle host.tree setup.path = none)
      (decoders : host.decoders = some script :: later)
      (filters : Status.warnCode ≤ script.supportFilters.code)
      (formats : Status.warnCode ≤ script.supportFormats.code)
      (opened : script.openFile.code = 0) :
      Acquires setup host (.ok ((Handle.ofScript host.allocated script).answer script.openFile),
        host.handedOut.callAll host.allocated
          (openingCalls setup.options.blockSize setup.path))

theorem acquire_acquires (setup : Setup) (host : Host) :
    Acquires setup host (acquire setup host) := by
  unfold acquire
  cases clear : obstacle host.tree setup.path with
  | some reason => exact .obstructed clear
  | none =>
      unfold Host.allocate
      dsimp only
      split
      · rename_i handed
        split at handed
        · cases handed
        · rename_i nothing
          cases handed
          exact .unavailable clear nothing
      · rename_i handed
        split at handed
        · rename_i script later decoders
          cases handed
          by_cases filters : Status.warnCode ≤ script.supportFilters.code
          · by_cases formats : Status.warnCode ≤ script.supportFormats.code
            · by_cases opened : script.openFile.code = 0
              · rw [prepare_ready _ filters formats opened]
                exact .ready clear decoders filters formats opened
              · rw [prepare_refused _ (.file filters formats opened)]
                exact .refused clear decoders (.file filters formats opened)
            · rw [prepare_refused _ (.formats filters (Int.not_le.mp formats))]
              exact .refused clear decoders (.formats filters (Int.not_le.mp formats))
          · rw [prepare_refused _ (.filters (Int.not_le.mp filters))]
            exact .refused clear decoders (.filters (Int.not_le.mp filters))
        · cases handed

end Reader

end ArchiveTraversal
