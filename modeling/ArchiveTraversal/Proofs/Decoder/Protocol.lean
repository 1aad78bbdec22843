import ArchiveTraversal.Host

/-!
The protocol that decoders are used by. A log of calls is settled when every handle in it, one after
the other, has gone through its whole life, from allocation to release. A settled log follows the
protocol, whatever part of it is looked at.
-/

namespace ArchiveTraversal

def Record.call? : Record → Option (Nat × Decoder.Call)
  | .call handle made => some (handle, made)
  | _ => none

/-- The calls made on all decoders, in order, each with the number of its handle. -/
def Host.calls (host : Host) : List (Nat × Decoder.Call) :=
  host.journal.toList.filterMap Record.call?

namespace Decoder

def callsOn (number : Nat) (log : List (Nat × Call)) : List Call :=
  log.filterMap fun entry => if entry.1 = number then some entry.2 else none

/-- The latest request for a header was answered with a code of zero and a header. -/
def OnMember (script : Script) (calls : List Call) : Prop :=
  ∃ earlier item, calls.count .nextHeader = earlier + 1 ∧ script.headers[earlier]? = some item ∧
    item.reply.code = 0 ∧ item.header ≠ none

/-- The calls between opening and release: data is read and skipped on members only. -/
def Traversal (script : Script) (calls : List Call) : Prop :=
  ∀ before call after, calls = before ++ call :: after →
    call = .nextHeader ∨
      ((∃ capacity, call = .readData capacity) ∨ call = .skipData) ∧ OnMember script before

def openingCalls (blockSize : Nat) (path : Path) : List Call :=
  [.allocate, .supportFilters, .supportFormats, .openFile blockSize path]

/-- All calls on one decoder, given up at the first refusal or traversed, and then released. -/
inductive Lifecycle (script : Script) : List Call → Prop
  | filtersRefused (refused : script.supportFilters.code < Status.warnCode) :
      Lifecycle script [.allocate, .supportFilters, .free]
  | formatsRefused (refused : script.supportFormats.code < Status.warnCode) :
      Lifecycle script [.allocate, .supportFilters, .supportFormats, .free]
  | notOpened (blockSize : Nat) (path : Path) (refused : script.openFile.code ≠ 0) :
      Lifecycle script (openingCalls blockSize path ++ [.free])
  | traversed (blockSize : Nat) (path : Path) (used : List Call)
      (opened : script.openFile.code = 0) (traversal : Traversal script used) :
      Lifecycle script (openingCalls blockSize path ++ used ++ [.free])

/-- Allocated, with a decoder at the other end, and not yet freed. -/
def Live (scripts : List (Option Script)) (log : List (Nat × Call)) (number : Nat) : Prop :=
  (∃ script, scripts[number]? = some (some script)) ∧ .allocate ∈ callsOn number log ∧
    .free ∉ callsOn number log

/-- A decoder that is handed out goes through its life and no further; of one that there is not,
nothing but the attempt to allocate it is seen. Never are two alive, and in the end none is. -/
structure Protocol (scripts : List (Option Script)) (log : List (Nat × Call)) : Prop where
  lifecycle : ∀ number script, scripts[number]? = some (some script) →
    callsOn number log = [] ∨ Lifecycle script (callsOn number log)
  absent : ∀ number, (∀ script, scripts[number]? ≠ some (some script)) →
    callsOn number log = [] ∨ callsOn number log = [.allocate]
  single : ∀ before, before <+: log → ∀ number other,
    Live scripts before number → Live scripts before other → number = other
  released : ∀ number, ¬ Live scripts log number

/-- So many handles have been given out, and each is done with. -/
inductive Settled (scripts : List (Option Script)) : Nat → List (Nat × Call) → Prop
  | start : Settled scripts 0 []
  | absent {number : Nat} {log : List (Nat × Call)} (settled : Settled scripts number log)
      (nothing : ∀ script, scripts[number]? ≠ some (some script)) :
      Settled scripts (number + 1) (log ++ [(number, .allocate)])
  | decoder {number : Nat} {log : List (Nat × Call)} {script : Script} {calls : List Call}
      (settled : Settled scripts number log) (found : scripts[number]? = some (some script))
      (lifecycle : Lifecycle script calls) :
      Settled scripts (number + 1) (log ++ calls.map (Prod.mk number))

theorem callsOn_append (number : Nat) (left right : List (Nat × Call)) :
    callsOn number (left ++ right) = callsOn number left ++ callsOn number right :=
  List.filterMap_append

theorem callsOn_own (number : Nat) (calls : List Call) :
    callsOn number (calls.map (Prod.mk number)) = calls := by
  have own : (fun entry => if entry.1 = number then some entry.2 else none) ∘ Prod.mk number =
      (some : Call → Option Call) := funext fun _ => if_pos rfl
  rw [callsOn, List.filterMap_map, own, List.filterMap_some]

theorem callsOn_of_others {number : Nat} {log : List (Nat × Call)}
    (others : ∀ entry ∈ log, entry.1 ≠ number) : callsOn number log = [] := by
  apply List.filterMap_eq_nil_iff.mpr
  intro entry member
  simp [others entry member]

theorem Lifecycle.free_mem {script : Script} {calls : List Call}
    (lifecycle : Lifecycle script calls) : .free ∈ calls := by
  cases lifecycle <;> simp

theorem Traversal.nil (script : Script) : Traversal script [] := by
  intro before call after split
  simp at split

theorem Traversal.concat {script : Script} {calls : List Call} {next : Call}
    (traversal : Traversal script calls)
    (allowed : next = .nextHeader ∨
      ((∃ capacity, next = .readData capacity) ∨ next = .skipData) ∧ OnMember script calls) :
    Traversal script (calls ++ [next]) := by
  intro before call after split
  -- The call in question is the new one, or is as far from the start as it was before.
  rcases List.eq_nil_or_concat after with none | ⟨rest, last, ends⟩
  · subst none
    obtain ⟨same, called⟩ := List.append_inj' split rfl
    cases called
    rw [← same]
    exact allowed
  · rw [ends, List.concat_eq_append, ← List.cons_append, ← List.append_assoc] at split
    exact traversal before call rest (List.append_inj' split rfl).1

namespace Settled

variable {scripts : List (Option Script)} {number : Nat} {log : List (Nat × Call)}

theorem number_lt (settled : Settled scripts number log) : ∀ entry ∈ log, entry.1 < number := by
  induction settled with
  | start =>
      intro entry member
      cases member
  | absent _ _ ih =>
      intro entry member
      rcases List.mem_append.mp member with earlier | new
      · exact Nat.lt_succ_of_lt (ih entry earlier)
      · simp at new
        simp [new]
  | decoder _ _ _ ih =>
      intro entry member
      rcases List.mem_append.mp member with earlier | new
      · exact Nat.lt_succ_of_lt (ih entry earlier)
      · obtain ⟨call, _, same⟩ := List.mem_map.mp new
        simp [← same]

theorem callsOn_eq_nil (settled : Settled scripts number log) {other : Nat}
    (later : number ≤ other) : callsOn other log = [] := by
  apply callsOn_of_others
  intro entry member same
  have less := settled.number_lt entry member
  omega

theorem callsOn_next (settled : Settled scripts number log) (calls : List Call) (other : Nat) :
    callsOn other (log ++ calls.map (Prod.mk number)) =
      if other = number then calls else callsOn other log := by
  rw [callsOn_append]
  by_cases same : other = number
  · subst same
    simp [settled.callsOn_eq_nil (Nat.le_refl _), callsOn_own]
  · have others : callsOn other (calls.map (Prod.mk number)) = [] := by
      apply callsOn_of_others
      intro entry member
      obtain ⟨call, _, rfl⟩ := List.mem_map.mp member
      exact fun alike => same alike.symm
    simp [others, same]

theorem live_next (settled : Settled scripts number log)
    (released : ∀ other, ¬ Live scripts log other) {calls : List Call} {other : Nat}
    (live : Live scripts (log ++ calls.map (Prod.mk number)) other) : other = number := by
  apply Decidable.byContradiction
  intro apart
  apply released other
  unfold Live at live ⊢
  rwa [settled.callsOn_next, if_neg apart] at live

theorem protocol_next (settled : Settled scripts number log) (protocol : Protocol scripts log)
    {calls : List Call}
    (lifecycle : ∀ script, scripts[number]? = some (some script) → Lifecycle script calls)
    (absent : (∀ script, scripts[number]? ≠ some (some script)) → calls = [.allocate]) :
    Protocol scripts (log ++ calls.map (Prod.mk number)) := by
  constructor
  · intro other script found
    rw [settled.callsOn_next]
    split
    · rename_i same
      subst same
      exact .inr (lifecycle script found)
    · exact protocol.lifecycle other script found
  · intro other nothing
    rw [settled.callsOn_next]
    split
    · rename_i same
      subst same
      exact .inr (absent nothing)
    · exact protocol.absent other nothing
  · intro before shorter one other liveOne liveOther
    -- Either the part ends before the new handle appears, or its end is part of the handle's log.
    rcases List.prefix_or_prefix_of_prefix shorter (List.prefix_append log _) with upper | ⟨more, rfl⟩
    · exact protocol.single before upper one other liveOne liveOther
    · obtain ⟨rest, split⟩ := shorter
      rw [List.append_assoc, List.append_right_inj] at split
      obtain ⟨part, _, _, rfl, _⟩ := List.map_eq_append_iff.mp split.symm
      rw [settled.live_next protocol.released liveOne,
        settled.live_next protocol.released liveOther]
  · intro other live
    have same := settled.live_next protocol.released live
    subst same
    obtain ⟨⟨script, found⟩, _, held⟩ := live
    apply held
    rw [settled.callsOn_next, if_pos rfl]
    exact (lifecycle script found).free_mem

theorem protocol (settled : Settled scripts number log) : Protocol scripts log := by
  induction settled with
  | start =>
      constructor
      · intro number script _
        exact .inl rfl
      · intro number _
        exact .inl rfl
      · intro before shorter number other live
        rw [List.prefix_nil.mp shorter] at live
        cases live.2.1
      · intro number live
        cases live.2.1
  | @absent number log settled nothing ih =>
      -- A failed allocation leaves a log of one call.
      have only : ([.allocate] : List Call).map (Prod.mk number) = [(number, .allocate)] := rfl
      rw [← only]
      apply settled.protocol_next ih
      · intro script found
        exact absurd found (nothing script)
      · intro _
        rfl
  | @decoder number log script calls settled found lifecycle ih =>
      apply settled.protocol_next ih
      · intro other same
        rw [found] at same
        cases same
        exact lifecycle
      · intro nothing
        exact absurd found (nothing script)

end Settled

end Decoder

end ArchiveTraversal
