import ArchiveTraversal.Proofs.Decoder.Answers
import ArchiveTraversal.Proofs.Reader.Opening

/-!
How a run on a new reader begins, and that it leaves no decoder behind. Either the archive opens,
and the calls that open it are followed by those of the run and the one that frees the decoder; or a
step of opening it fails, and the decoder is freed at once if there is one by then.
-/

namespace ArchiveTraversal

open Decoder

def Decoder.lifeCalls (blockSize : Nat) (path : Path) (used : List Call) : List Call :=
  openingCalls blockSize path ++ used ++ [.free]

/-- A decoder that has been handed out is freed by just one of the calls on it; without a decoder
there is nothing to free. -/
def FreesOnce (decoder : Option Script) (calls : List Call) : Prop :=
  calls.count .free = if .allocate ∈ calls ∧ decoder.isSome then 1 else 0

namespace OpeningStep

variable {tree : FileTree} {path : Path} {blockSize : Nat} {decoder : Option Script}
  {step : OpeningStep}

theorem call_of_mem_course (member : step ∈ course tree path blockSize decoder) :
    ∀ call ∈ step.call?, call ∈ openingCalls blockSize path := by
  rcases List.mem_append.mp member with first | second
  · have silent : step.call? = none := by
      unfold inspection at first
      split at first <;> simp at first <;> rcases first with rfl | rfl <;> rfl
    simp [silent]
  · unfold preparation at second
    split at second <;> simp at second
    · simp [second, openingCalls]
    · rcases second with rfl | rfl | rfl | rfl <;> simp [answered, openingCalls]

theorem passes_iff_of_allocate (member : step ∈ course tree path blockSize decoder)
    (allocates : step.call? = some .allocate) : step.Passes ↔ decoder.isSome = true := by
  rcases List.mem_append.mp member with first | second
  · unfold inspection at first
    split at first <;> simp at first <;> rcases first with rfl | rfl <;> cases allocates
  · unfold preparation at second
    split at second <;> simp at second
    · simp [second, Passes]
    · rcases second with rfl | rfl | rfl | rfl
      · simp [Passes]
      all_goals cases allocates

section

variable {passed : List OpeningStep} {failing : OpeningStep} {reason : Reason}

theorem FirstFailure.mem_course
    (first : FirstFailure (course tree path blockSize decoder) passed failing reason)
    (taken : step ∈ passed ++ [failing]) : step ∈ course tree path blockSize decoder := by
  obtain ⟨rest, split⟩ := first.split
  rw [split, List.append_cons]
  exact List.mem_append_left rest taken

theorem FirstFailure.mem_calls
    (first : FirstFailure (course tree path blockSize decoder) passed failing reason) {call : Call}
    (called : call ∈ calls (passed ++ [failing])) : call ∈ openingCalls blockSize path := by
  obtain ⟨step, taken, made⟩ := List.mem_filterMap.mp called
  exact call_of_mem_course (first.mem_course taken) call made

/-- No step of opening frees a decoder, so that is left to what follows. -/
theorem FirstFailure.frees_once
    (first : FirstFailure (course tree path blockSize decoder) passed failing reason) :
    FreesOnce decoder (calls (passed ++ [failing]) ++ cleanup passed) := by
  have unfreed : (calls (passed ++ [failing])).count .free = 0 := by
    apply List.count_eq_zero.mpr
    intro called
    simpa [openingCalls] using first.mem_calls called
  -- The step that allocates goes well just if it leaves something to be freed.
  have allocated : .allocate ∈ calls passed ↔
      .allocate ∈ calls (passed ++ [failing]) ∧ decoder.isSome = true := by
    constructor
    · intro member
      obtain ⟨step, taken, called⟩ := List.mem_filterMap.mp member
      have early := List.mem_append_left [failing] taken
      exact ⟨List.mem_filterMap.mpr ⟨step, early, called⟩,
        (passes_iff_of_allocate (first.mem_course early) called).mp (first.passed step taken)⟩
    · rintro ⟨member, there⟩
      obtain ⟨step, taken, called⟩ := List.mem_filterMap.mp member
      have fine := (passes_iff_of_allocate (first.mem_course taken) called).mpr there
      rcases List.mem_append.mp taken with early | last
      · exact List.mem_filterMap.mpr ⟨step, early, called⟩
      · rw [List.mem_singleton.mp last, Passes, first.failing] at fine
        cases fine
  unfold FreesOnce cleanup
  split
  · rename_i member
    simp [unfreed, allocated.mp member]
  · rename_i absent
    have none := mt allocated.mpr absent
    simp [unfreed, none]

theorem FirstFailure.opens_or_frees
    (first : FirstFailure (course tree path blockSize decoder) passed failing reason) {call : Call}
    (called : call ∈ calls (passed ++ [failing]) ++ cleanup passed) :
    call ∈ openingCalls blockSize path ∨ call = .free := by
  rcases List.mem_append.mp called with early | late
  · exact .inl (first.mem_calls early)
  · unfold cleanup at late
    split at late
    · exact .inr (List.mem_singleton.mp late)
    · cases late

theorem FirstFailure.silent
    (first : FirstFailure (course tree path blockSize decoder) passed failing reason) :
    .skipData ∉ calls (passed ++ [failing]) ++ cleanup passed ∧
      ∀ capacity, .readData capacity ∉ calls (passed ++ [failing]) ++ cleanup passed := by
  constructor
  · intro called
    simpa [openingCalls] using first.opens_or_frees called
  · intro capacity called
    simpa [openingCalls] using first.opens_or_frees called

end

end OpeningStep

theorem Reader.Opens.frees_once {path : Path} {host : Host} {script : Script}
    (opens : Opens path host script) (blockSize : Nat) {used : List Call} (unfreed : .free ∉ used) :
    FreesOnce host.decoders.head?.join (lifeCalls blockSize path used) := by
  obtain ⟨later, next⟩ := opens.next
  have none := List.count_eq_zero.mpr unfreed
  simp [FreesOnce, next, lifeCalls, openingCalls, none]

namespace Reader

inductive Begins (path : Path) (options : ReaderOptions) (host : Host) : Opening × Host → Prop
  | opened {script : Script} {session : Session} {after : Host} (opens : Opens path host script)
      (setup : session.setup = ⟨path, options.normalized⟩)
      (handle : session.handle =
        (Handle.ofScript host.allocated script).answer script.openFile)
      (start : session.cursor = .start)
      (called : host.Makes host.allocated (openingCalls options.normalized.blockSize path) after) :
      Begins path options host (.opened session, after)
  | refused {reason : Reason} {reader : Reader} {after : Host} {passed : List OpeningStep}
      {failing : OpeningStep}
      (shut : ∀ script, ¬ Opens path host script)
      (first : OpeningStep.FirstFailure (OpeningStep.course host.tree path
        options.normalized.blockSize host.decoders.head?.join) passed failing reason)
      (called : host.Makes host.allocated
        (OpeningStep.calls (passed ++ [failing]) ++ OpeningStep.cleanup passed) after) :
      Begins path options host (.refused (.opening path reason) reader, after)

theorem openSession_begins (path : Path) (options : ReaderOptions) (host : Host) :
    Begins path options host ((new path options).openSession host) := by
  have attempts := (new path options).openSession_attempts host
  generalize attempted : (new path options).openSession host = outcome at *
  cases attempts with
  | opened =>
      obtain ⟨script, opens, handle, called⟩ := opens_of_opened attempted
      obtain ⟨_, _, _, _, setup, start⟩ := openSession_opened attempted
      exact .opened opens setup handle start called
  | refused first called =>
      refine .refused (fun script opens => ?_) first (called.trans ?_)
      · obtain ⟨session, between, opened, _⟩ := opens.openSession options
        cases attempted.symm.trans opened
      · have unheld : (new path options).staleCalls = [] := rfl
        rw [callsWith, unheld, List.append_nil]

end Reader

theorem Session.makes_life {session : Session} {before after : Host} {blockSize : Nat}
    {path : Path} {used : List Call} (own : session.handle.number = before.allocated)
    (made : before.Makes before.allocated (openingCalls blockSize path ++ used) after) :
    before.Makes before.allocated (lifeCalls blockSize path used) (session.close after).2.2 := by
  have freed : after.Makes before.allocated [.free] (session.close after).2.2 :=
    own ▸ session.calls_close after
  exact made.trans freed

end ArchiveTraversal
