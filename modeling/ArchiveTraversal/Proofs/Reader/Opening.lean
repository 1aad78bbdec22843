import ArchiveTraversal.Proofs.Reader.Reuse

/-!
Opening an archive, step by step. The file is looked at, a decoder is allocated, and the decoder is
set up; each step is taken only if none before it has failed. An opening that gets through all of
them begins a session, and one that does not is told of the step where it ended, and has freed the
decoder if it had one by then.
-/

namespace ArchiveTraversal

open Decoder

/-- A step of opening: the call that it makes on a decoder, if any, and the reason for which it
fails, if it does. -/
structure OpeningStep where
  call? : Option Call := none
  failure? : Option Reason := none

namespace OpeningStep

def answered (call : Call) (reply : Reply) (accepted : Bool) : OpeningStep where
  call? := some call
  failure? := if accepted then none else some (reply.diagnostic.reason reply.code)

def inspection (tree : FileTree) (path : Path) : List OpeningStep :=
  match tree.metadata path with
  | .error error => [{ failure? := some (.io error) }]
  | .ok (.file []) => [{}, { failure? := some .emptyArchive }]
  | .ok _ => [{}, {}]

def preparation (path : Path) (blockSize : Nat) : Option Script → List OpeningStep
  | none => [{ call? := some .allocate, failure? := some .noDecoder }]
  | some script =>
      [{ call? := some .allocate },
        answered .supportFilters script.supportFilters
          (Status.warnCode ≤ script.supportFilters.code),
        answered .supportFormats script.supportFormats
          (Status.warnCode ≤ script.supportFormats.code),
        answered (.openFile blockSize path) script.openFile (script.openFile.code = 0)]

/-- The steps of opening a path in a tree, with the decoder that comes next. -/
def course (tree : FileTree) (path : Path) (blockSize : Nat) (decoder : Option Script) :
    List OpeningStep :=
  inspection tree path ++ preparation path blockSize decoder

def Passes (step : OpeningStep) : Prop := step.failure? = none

structure FirstFailure (steps passed : List OpeningStep) (failing : OpeningStep) (reason : Reason) :
    Prop where
  split : ∃ rest, steps = passed ++ failing :: rest
  passed : ∀ step ∈ passed, step.Passes
  failing : failing.failure? = some reason

def calls (steps : List OpeningStep) : List Call := steps.filterMap call?

def cleanup (passed : List OpeningStep) : List Call :=
  if .allocate ∈ calls passed then [.free] else []

variable {tree : FileTree} {path : Path} {blockSize : Nat}

theorem inspection_clear (clear : Reader.obstacle tree path = none) :
    inspection tree path = [{}, {}] := by
  unfold Reader.obstacle at clear
  unfold inspection
  split
  · rename_i failed
    simp [failed] at clear
  · rename_i empty
    simp [empty] at clear
  · rfl

theorem inspection_blocked {reason : Reason} (blocked : Reader.obstacle tree path = some reason) :
    ∃ passed failing, FirstFailure (inspection tree path) passed failing reason ∧
      calls (passed ++ [failing]) = [] ∧ cleanup passed = [] := by
  unfold Reader.obstacle at blocked
  split at blocked
  · rename_i failed
    simp only [inspection, failed]
    exact ⟨[], { failure? := _ }, ⟨⟨[], rfl⟩, by simp, blocked⟩, rfl, rfl⟩
  · rename_i empty
    simp only [inspection, empty]
    exact ⟨[{}], { failure? := _ }, ⟨⟨[], rfl⟩, by simp [Passes], blocked⟩, rfl, rfl⟩
  · cases blocked

theorem answered_passes (call : Call) (reply : Reply) {accepted : Bool} :
    (answered call reply accepted).Passes ↔ accepted = true := by
  cases accepted <;> simp [Passes, answered]

theorem answered_fails (call : Call) (reply : Reply) {accepted : Bool} (refused : accepted = false) :
    (answered call reply accepted).failure? = some (reply.diagnostic.reason reply.code) := by
  rw [refused]
  rfl

theorem preparation_refused {setup : Setup} {script : Script} {made : List Call} {reply : Reply}
    (refuses : Reader.Refuses setup script made reply) :
    ∃ passed failing,
      FirstFailure (preparation setup.path setup.options.blockSize (some script)) passed failing
        (reply.diagnostic.reason reply.code) ∧
      calls (passed ++ [failing]) = .allocate :: made ∧ cleanup passed = [.free] := by
  have allocated : Passes { call? := some .allocate } := rfl
  cases refuses with
  | filters refused =>
      have fails := answered_fails .supportFilters script.supportFilters
        (decide_eq_false (Int.not_le.mpr refused))
      exact ⟨[_], _, ⟨⟨_, rfl⟩, by simpa using allocated, fails⟩, rfl, rfl⟩
  | formats filters refused =>
      have first := (answered_passes .supportFilters script.supportFilters).mpr (decide_eq_true filters)
      have fails := answered_fails .supportFormats script.supportFormats
        (decide_eq_false (Int.not_le.mpr refused))
      exact ⟨[_, _], _, ⟨⟨_, rfl⟩, by simpa using ⟨allocated, first⟩, fails⟩, rfl, rfl⟩
  | file filters formats refused =>
      have first := (answered_passes .supportFilters script.supportFilters).mpr (decide_eq_true filters)
      have second := (answered_passes .supportFormats script.supportFormats).mpr (decide_eq_true formats)
      have fails := answered_fails (.openFile setup.options.blockSize setup.path) script.openFile
        (decide_eq_false refused)
      exact ⟨[_, _, _], _, ⟨⟨_, rfl⟩, by simpa using ⟨allocated, first, second⟩, fails⟩, rfl, rfl⟩

theorem FirstFailure.append {steps passed : List OpeningStep} {failing : OpeningStep}
    {reason : Reason} (first : FirstFailure steps passed failing reason)
    (more : List OpeningStep) : FirstFailure (steps ++ more) passed failing reason := by
  obtain ⟨rest, split⟩ := first.split
  exact ⟨⟨rest ++ more, by rw [split, List.append_assoc, List.cons_append]⟩, first.passed,
    first.failing⟩

theorem FirstFailure.after {steps passed : List OpeningStep} {failing : OpeningStep}
    {reason : Reason} (first : FirstFailure steps passed failing reason)
    {earlier : List OpeningStep} (passes : ∀ step ∈ earlier, step.Passes) :
    FirstFailure (earlier ++ steps) (earlier ++ passed) failing reason := by
  obtain ⟨rest, split⟩ := first.split
  refine ⟨⟨rest, by rw [split, List.append_assoc]⟩, ?_, first.failing⟩
  intro step member
  rcases List.mem_append.mp member with before | later
  · exact passes step before
  · exact first.passed step later

theorem FirstFailure.unique {steps passed otherPassed : List OpeningStep}
    {failing other : OpeningStep} {reason otherReason : Reason}
    (first : FirstFailure steps passed failing reason)
    (too : FirstFailure steps otherPassed other otherReason) :
    otherPassed = passed ∧ other = failing ∧ otherReason = reason := by
  have clash : ∀ {step : OpeningStep} {why}, step.failure? = some why → ¬ step.Passes := by
    intro step why fails passes
    rw [passes] at fails
    cases fails
  obtain ⟨⟨rest, split⟩, passes, fails⟩ := first
  obtain ⟨⟨otherRest, otherSplit⟩, otherPasses, otherFails⟩ := too
  rw [split] at otherSplit
  clear split
  induction passed generalizing otherPassed with
  | nil =>
      cases otherPassed with
      | nil =>
          cases otherSplit
          exact ⟨rfl, rfl, Option.some.inj (otherFails.symm.trans fails)⟩
      | cons step later =>
          cases otherSplit
          exact absurd (otherPasses _ List.mem_cons_self) (clash fails)
  | cons step later ih =>
      cases otherPassed with
      | nil =>
          cases otherSplit
          exact absurd (passes _ List.mem_cons_self) (clash otherFails)
      | cons otherStep otherLater =>
          obtain ⟨rfl, onward⟩ := List.cons.inj otherSplit
          obtain ⟨rfl, same⟩ := ih (fun step member => passes step (.tail _ member))
            (fun step member => otherPasses step (.tail _ member)) onward
          exact ⟨rfl, same⟩

theorem all_pass_iff {decoder : Option Script} :
    (∀ step ∈ course tree path blockSize decoder, step.Passes) ↔
      Reader.obstacle tree path = none ∧ ∃ script, decoder = some script ∧
        Status.warnCode ≤ script.supportFilters.code ∧
        Status.warnCode ≤ script.supportFormats.code ∧ script.openFile.code = 0 := by
  unfold course
  cases clear : Reader.obstacle tree path with
  | some reason =>
      obtain ⟨passed, failing, first, -⟩ := inspection_blocked clear
      obtain ⟨rest, split⟩ := first.split
      have fails := first.failing
      simp only [reduceCtorEq, false_and, iff_false]
      intro passes
      have passing : failing.failure? = none := passes failing (by simp [split])
      rw [passing] at fails
      cases fails
  | none =>
      have idle : Passes {} := rfl
      have allocated : Passes { call? := some .allocate } := rfl
      rw [inspection_clear clear]
      cases decoder with
      | none => simp [preparation, Passes]
      | some script => simp [preparation, idle, allocated, answered_passes]

theorem calls_course (clear : Reader.obstacle tree path = none) (script : Script) :
    calls (course tree path blockSize (some script)) = openingCalls blockSize path := by
  rw [course, inspection_clear clear]
  rfl

end OpeningStep

namespace Reader

open OpeningStep

inductive Takes (steps : List OpeningStep) (host : Host) : Except Reason Handle × Host → Prop
  | through {handle : Handle} {after : Host} (passes : ∀ step ∈ steps, step.Passes)
      (made : after.calls = host.calls ++ (calls steps).map (Prod.mk host.allocated)) :
      Takes steps host (.ok handle, after)
  | stopped {reason : Reason} {after : Host} {passed : List OpeningStep} {failing : OpeningStep}
      (first : FirstFailure steps passed failing reason)
      (made : after.calls = host.calls ++
        (calls (passed ++ [failing]) ++ cleanup passed).map (Prod.mk host.allocated)) :
      Takes steps host (.error reason, after)

theorem acquire_takes (setup : Setup) (host : Host) :
    Takes (course host.tree setup.path setup.options.blockSize host.decoders.head?.join) host
      (acquire setup host) := by
  have called : ∀ made, (host.handedOut.callAll host.allocated made).calls =
      host.calls ++ made.map (Prod.mk host.allocated) :=
    fun made => host.handedOut.calls_callAll host.allocated made
  have acquires := acquire_acquires setup host
  generalize acquire setup host = outcome at *
  unfold course
  cases acquires with
  | obstructed blocked =>
      obtain ⟨passed, failing, first, none, nothing⟩ := inspection_blocked blocked
      apply Takes.stopped (first.append _)
      rw [none, nothing]
      exact (List.append_nil _).symm
  | unavailable clear nothing =>
      have missing : host.decoders.head?.join = none := by
        cases left : host.decoders with
        | nil => rfl
        | cons next later =>
            cases next with
            | none => rfl
            | some script => exact absurd left (nothing script later)
      rw [inspection_clear clear, missing]
      have first : FirstFailure (preparation setup.path setup.options.blockSize none) []
          { call? := some .allocate, failure? := some .noDecoder } .noDecoder :=
        ⟨⟨[], rfl⟩, by simp, rfl⟩
      exact .stopped (first.after (by simp [Passes])) (called [.allocate])
  | @refused script later made reply clear decoders refuses =>
      obtain ⟨passed, failing, first, taken, freed⟩ := preparation_refused refuses
      rw [inspection_clear clear, decoders]
      have whole : calls (passed ++ [failing]) ++ cleanup passed = .allocate :: made ++ [.free] := by
        rw [taken, freed]
      rw [← whole]
      exact .stopped (first.after (by simp [Passes])) (called _)
  | @ready script later clear decoders filters formats opened =>
      have passes : ∀ step ∈ course host.tree setup.path setup.options.blockSize (some script),
          step.Passes := all_pass_iff.mpr ⟨clear, script, rfl, filters, formats, opened⟩
      rw [inspection_clear clear, decoders]
      rw [course, inspection_clear clear] at passes
      exact .through passes (called _)

theorem obstacle_eq_none_iff {tree : FileTree} {path : Path} :
    obstacle tree path = none ↔ ∃ node, tree.metadata path = .ok node ∧ node ≠ .file [] := by
  unfold obstacle
  split
  · rename_i failed
    simp [failed]
  · rename_i empty
    simp [empty]
  · rename_i node full found
    simpa [found] using full

def course (reader : Reader) (host : Host) : List OpeningStep :=
  OpeningStep.course host.tree reader.path reader.options.blockSize host.decoders.head?.join

/-- The calls of opening it come after freeing the handle of an abandoned session. -/
def callsWith (reader : Reader) (host : Host) (made : List Call) : List (Nat × Call) :=
  host.calls ++ reader.staleCalls ++ made.map (Prod.mk host.allocated)

inductive Attempts (reader : Reader) (host : Host) : Opening × Host → Prop
  | opened {session : Session} {after : Host} (passes : ∀ step ∈ reader.course host, step.Passes)
      (called : after.calls = reader.callsWith host (calls (reader.course host))) :
      Attempts reader host (.opened session, after)
  | refused {reason : Reason} {buffer : Bytes} {after : Host} {passed : List OpeningStep}
      {failing : OpeningStep} (first : FirstFailure (reader.course host) passed failing reason)
      (called : after.calls =
        reader.callsWith host (calls (passed ++ [failing]) ++ cleanup passed)) :
      Attempts reader host
        (.refused (.opening reader.path reason) (.closed reader.setup buffer), after)

theorem openSession_attempts (reader : Reader) (host : Host) :
    reader.Attempts host (reader.openSession host) := by
  obtain ⟨tree, decoders, allocated, stale⟩ := reader.releaseStale_host host
  have setup : (reader.releaseStale host).1 = reader.setup := by cases reader <;> rfl
  have takes := acquire_takes (reader.releaseStale host).1 (reader.releaseStale host).2.2
  unfold openSession
  dsimp only
  generalize acquire (reader.releaseStale host).1 (reader.releaseStale host).2.2 = outcome at *
  rw [setup, tree, decoders] at takes
  rw [setup]
  cases takes with
  | through passes made =>
      rw [allocated, stale] at made
      exact .opened passes ((Host.event_quiet ..).calls.trans made)
  | stopped first made =>
      rw [allocated, stale] at made
      exact .refused first made

end Reader

/-- However a reader has been used, to open its archive is all or nothing. It begins a session just
if there is something at the path, which is not an empty file, and a decoder that does not do worse
than warn while it is set up and opens the file without complaint. Otherwise the first step that
fails is the last one taken, its reason is told, and a decoder that has been allocated is freed; the
reader then holds nothing, so that there is nothing to close. The handle of an abandoned session is
freed before all that. -/
theorem opening_all_or_nothing (path : Path) (options : ReaderOptions) {history : List Operation}
    {before host : Host} {reader : Reader}
    (used : (runProgram history (.atRest (.new path options)) before).2 = (.atRest reader, host)) :
    let attempt := reader.openSession host
    let decoder := host.decoders.head?.join
    let blockSize := if options.blockSize = 0 then defaultBlockSize else options.blockSize
    let steps := OpeningStep.course host.tree path blockSize decoder
    ((∃ session, attempt.1 = .opened session) ↔
      (∃ node, host.tree.metadata path = .ok node ∧ node ≠ .file []) ∧
      ∃ script, decoder = some script ∧ -20 ≤ script.supportFilters.code ∧
        -20 ≤ script.supportFormats.code ∧ script.openFile.code = 0) ∧
    (∀ session, attempt.1 = .opened session → attempt.2.calls = reader.callsWith host
      [.allocate, .supportFilters, .supportFormats, .openFile blockSize path]) ∧
    ∀ error after, attempt.1 = .refused error after → ∃ passed failing reason,
      OpeningStep.FirstFailure steps passed failing reason ∧ error = .opening path reason ∧
      attempt.2.calls = reader.callsWith host
        (OpeningStep.calls (passed ++ [failing]) ++ OpeningStep.cleanup passed) ∧
      after.isOpen = false ∧ after.close attempt.2 = (true, after, attempt.2) := by
  intro attempt decoder blockSize steps
  have setup : reader.setup = ⟨path, options.normalized⟩ := by
    have kept := Position.setup_runProgram history (.atRest (.new path options)) before
    rw [used] at kept
    exact kept
  have own : reader.path = path := congrArg Setup.path setup
  have course : reader.course host = steps := by
    unfold Reader.course Reader.options
    rw [own, setup]
    rfl
  have passing : (∀ step ∈ steps, step.Passes) ↔ _ := OpeningStep.all_pass_iff
  have attempts : reader.Attempts host attempt := reader.openSession_attempts host
  generalize attempt = outcome at *
  -- The steps depend on the tree and the next decoder, and not on how the reader was used.
  cases attempts with
  | opened passes called =>
      rw [course] at passes called
      have conditions := passing.mp passes
      have ⟨clear, script, next, _⟩ := conditions
      have taken : OpeningStep.calls steps = openingCalls blockSize path := by
        simp only [steps, next]
        exact OpeningStep.calls_course clear script
      rw [Reader.obstacle_eq_none_iff] at conditions
      rw [taken] at called
      exact ⟨⟨fun _ => conditions, fun _ => ⟨_, rfl⟩⟩, fun _ _ => called, by simp⟩
  | @refused reason buffer after passed failing first called =>
      rw [course] at first
      rw [Reader.obstacle_eq_none_iff] at passing
      rw [own]
      refine ⟨⟨by simp, ?_⟩, by simp, ?_⟩
      · intro conditions
        obtain ⟨rest, split⟩ := first.split
        have passes : failing.Passes := passing.mpr conditions failing (by simp [split])
        have fails := first.failing
        rw [passes] at fails
        cases fails
      · intro error closed met
        cases met
        exact ⟨passed, failing, reason, first, rfl, called, rfl, rfl⟩

/-- An abandoned session is followed by an attempt in which the formats are refused: the file is not
opened, and both decoders are freed. -/
theorem reopening_refused :
    let archive : Path := [0x78]
    let refusal : Reply := { code := -25, diagnostic := ⟨some [0x62], 0⟩ }
    let before : Host :=
      { decoders := [some {}, some { supportFormats := refusal }]
        tree := { entries := [(archive, .file [0])] } }
    let used := (runProgram [.openSession, .abandon] (.atRest (.new archive)) before).2
    ∃ reader after, used.1 = .atRest reader ∧
      (reader.openSession used.2).1 = .refused (.opening archive (.stated "b")) after ∧
      (reader.openSession used.2).2.calls = used.2.calls ++
        [(0, .free), (1, .allocate), (1, .supportFilters), (1, .supportFormats), (1, .free)] := by
  intro archive refusal before used
  let session : Session :=
    { setup := ⟨archive, ReaderOptions.normalized {}⟩, buffer := [],
      handle := (Handle.ofScript 0 {}).answer {} }
  have position : used = (.atRest (.abandoned session), used.2) := Prod.ext (by cbv) rfl
  obtain ⟨opens, -, refused⟩ := opening_all_or_nothing archive {} position
  have tree : used.2.tree = before.tree := by cbv
  have decoders : used.2.decoders = [some { supportFormats := refusal }] := by cbv
  have number : used.2.allocated = 1 := by cbv
  rw [tree, decoders] at opens refused
  cases met : ((Reader.abandoned session).openSession used.2).1 with
  | opened begun =>
      obtain ⟨-, _, ⟨⟩, -, formats, -⟩ := opens.mp ⟨begun, met⟩
      exact absurd formats (by decide)
  | refused error after =>
      obtain ⟨passed, failing, reason, first, rfl, calls, -⟩ := refused error after met
      have formats : OpeningStep.FirstFailure
          (OpeningStep.course before.tree archive defaultBlockSize
            (some { supportFormats := refusal }))
          [{}, {}, { call? := some .allocate }, { call? := some .supportFilters }]
          { call? := some .supportFormats, failure? := some (.stated "b") } (.stated "b") :=
        ⟨⟨[{ call? := some (.openFile defaultBlockSize archive) }], by cbv⟩,
          by simp [OpeningStep.Passes], rfl⟩
      obtain ⟨rfl, rfl, rfl⟩ := formats.unique first
      refine ⟨_, after, congrArg Prod.fst position, met, calls.trans ?_⟩
      rw [Reader.callsWith, number]
      exact List.append_assoc ..

end ArchiveTraversal
