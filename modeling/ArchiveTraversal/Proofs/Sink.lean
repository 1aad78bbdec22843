import ArchiveTraversal.Sink

/-!
What arrives at a sink. It may take a buffer in pieces, be interrupted, take nothing or fail, but what
has arrived is always a part from the front. Some sinks give answers that do not depend on how a text
is cut into writes. Such a sink has room for so many bytes: it takes all of a buffer that fits, and of
one that does not it takes what there is room for and then refuses. A sink without patience, in small
pieces or with interruptions, is still of this kind, as writing a whole buffer goes on until it has
been taken.
-/

namespace ArchiveTraversal

namespace WriteReply

theorem settled_map {State Image : Type} (reply : WriteReply State)
    (change : Nat → State → Image) :
    (reply.map change).settled =
      match reply.settled with
      | (.ok count, state) => (.ok count, change count state)
      | (.error error, state) => (.error error, change 0 state) := by
  induction reply with
  | interrupted again ih => exact ih
  | accepted => rfl
  | failed => rfl

end WriteReply

namespace Sink

variable {State : Type}

/-- What arrives of a buffer: all of it, or a part from the front if the sink gives out. -/
def Arrives (buffer arrived : Bytes) (failure : Option IoError) : Prop :=
  arrived <+: buffer ∧ (arrived = buffer ↔ failure = none)

theorem arrives_nothing (byte : UInt8) (rest : Bytes) (error : IoError) :
    Arrives (byte :: rest) [] (some error) :=
  ⟨List.nil_prefix, by simp⟩

theorem Arrives.after_take {buffer arrived : Bytes} {count : Nat} {failure : Option IoError}
    (arrives : Arrives (buffer.drop count) arrived failure) :
    Arrives buffer (buffer.take count ++ arrived) failure := by
  obtain ⟨front, whole⟩ := arrives
  have split := List.take_append_drop count buffer
  constructor
  · have further := (List.prefix_append_right_inj (buffer.take count)).mpr front
    rwa [split] at further
  · have same := List.append_right_inj (buffer.take count) |>.trans whole
    rwa [split] at same

/-- A sink is written to in the same way if it is recorded, and what is recorded is what arrives. -/
theorem writeAll_recording (sink : Sink State) (state : State) (earlier : List Bytes)
    (buffer : Bytes) :
    ∃ pieces, sink.recording.writeAll (state, earlier) buffer =
        (((sink.writeAll state buffer).1, pieces ++ earlier), (sink.writeAll state buffer).2) ∧
      Arrives buffer pieces.reverse.flatten (sink.writeAll state buffer).2 := by
  fun_induction Sink.writeAll sink state buffer generalizing earlier with
  | case1 state => exact ⟨[], by simp [writeAll], List.nil_prefix, by simp⟩
  | case2 state byte rest error after settled =>
      refine ⟨[[]], ?_, arrives_nothing byte rest error⟩
      rw [writeAll]
      simp [recording, WriteReply.settled_map, settled]
  | case3 state byte rest after settled =>
      refine ⟨[[]], ?_, arrives_nothing byte rest _⟩
      rw [writeAll]
      simp [recording, WriteReply.settled_map, settled]
  | case4 state byte rest count after settled ih =>
      obtain ⟨pieces, written, arrives⟩ := ih ((byte :: rest).take (count + 1) :: earlier)
      refine ⟨pieces ++ [(byte :: rest).take (count + 1)], ?_, ?_⟩
      · rw [writeAll]
        simp only [recording, WriteReply.settled_map, settled] at written ⊢
        rw [written, List.append_assoc]
        rfl
      · have further : Arrives ((byte :: rest).drop (count + 1)) _ _ := arrives
        simpa using further.after_take

def Fits (room : Option Nat) (count : Nat) : Prop := ∀ space, room = some space → count ≤ space

theorem fits_none (count : Nat) : Fits none count := by
  intro space there
  cases there

/-- A sink has the room that its state tells, or no end of it, and refuses what is beyond. -/
structure HasRoom (sink : Sink State) (room : State → Option Nat) (refusal : IoError) : Prop where
  fits : ∀ state earlier buffer, Fits (room state) buffer.length →
    ∃ after pieces,
      sink.recording.writeAll (state, earlier) buffer = ((after, pieces ++ earlier), none) ∧
      pieces.reverse.flatten = buffer ∧ room after = (room state).map (· - buffer.length)
  spills : ∀ state earlier buffer space, room state = some space → space < buffer.length →
    ∃ after pieces,
      sink.recording.writeAll (state, earlier) buffer =
        ((after, pieces ++ earlier), some refusal) ∧
      pieces.reverse.flatten = buffer.take space

theorem unlimited_hasRoom (refusal : IoError) : unlimited.HasRoom (fun _ => none) refusal := by
  constructor
  · intro state earlier buffer _
    cases buffer with
    | nil => exact ⟨state, [], by simp [writeAll], rfl, rfl⟩
    | cons byte rest =>
        refine ⟨(), [byte :: rest], ?_, by simp, rfl⟩
        rw [writeAll]
        simp [recording, unlimited, WriteReply.map, WriteReply.settled, writeAll]
  · intro state earlier buffer space none
    cases none

end Sink

namespace SinkLimits

def share (limits : SinkLimits) (taken length : Nat) : Nat :=
  let within (limit : Option Nat) (count : Nat) : Nat := (limit.map (min count)).getD count
  within (limits.room.map (· - taken)) (within limits.perWrite length)

def space (limits : SinkLimits) (usage : SinkUsage) : Option Nat :=
  if limits.perWrite = some 0 then some 0 else limits.room.map (· - usage.taken)

def refusal (limits : SinkLimits) : IoError :=
  if limits.refusesSilently then .writeZero else diskFull

variable (limits : SinkLimits)

theorem settled_write (usage : SinkUsage) (buffer : Bytes) :
    ∃ writes, (limits.sink.write usage buffer).settled =
      if limits.share usage.taken buffer.length = 0 ∧ !limits.refusesSilently then
        (.error diskFull, ⟨writes, usage.taken⟩)
      else (.ok (limits.share usage.taken buffer.length),
        ⟨writes, usage.taken + limits.share usage.taken buffer.length⟩) := by
  have taken : ∀ usage : SinkUsage, (limits.takes usage buffer).settled =
      if limits.share usage.taken buffer.length = 0 ∧ !limits.refusesSilently then
        (.error diskFull, usage)
      else (.ok (limits.share usage.taken buffer.length),
        { usage with taken := usage.taken + limits.share usage.taken buffer.length }) := by
    intro usage
    unfold takes share
    dsimp only
    split <;> rfl
  unfold sink
  dsimp only
  split
  · exact ⟨usage.writes + 1 + 1, taken ⟨usage.writes + 1 + 1, usage.taken⟩⟩
  · exact ⟨usage.writes + 1, taken ⟨usage.writes + 1, usage.taken⟩⟩

variable {limits} {usage : SinkUsage} {length room : Nat}

theorem share_le_length : limits.share usage.taken length ≤ length := by
  unfold share
  cases limits.room <;> cases limits.perWrite <;>
    simp only [Option.map_none, Option.map_some, Option.getD_none, Option.getD_some] <;>
    omega

theorem share_le_space (left : limits.space usage = some room) :
    limits.share usage.taken length ≤ room := by
  unfold space at left
  split at left
  · rename_i none
    cases left
    unfold share
    cases limits.room <;> simp [none]
  · unfold share
    cases within : limits.room with
    | none => simp [within] at left
    | some most =>
        simp only [within, Option.map_some, Option.some.injEq] at left
        subst left
        cases limits.perWrite <;>
          simp only [Option.map_none, Option.map_some, Option.getD_none, Option.getD_some] <;>
          omega

theorem space_of_no_share (some : 0 < length) (none : limits.share usage.taken length = 0) :
    limits.space usage = .some 0 := by
  unfold share at none
  unfold space
  split
  · rfl
  · rename_i patience
    cases within : limits.room with
    | none =>
        exfalso
        cases pieces : limits.perWrite with
        | none => simp [within, pieces] at none; omega
        | some most =>
            have more : most ≠ 0 := fun zero => patience (by rw [pieces, zero])
            simp [within, pieces] at none
            omega
    | some most =>
        simp only [Option.map_some, Option.some.injEq]
        cases pieces : limits.perWrite with
        | none => simp [within, pieces] at none; omega
        | some each =>
            have more : each ≠ 0 := fun zero => patience (by rw [pieces, zero])
            simp [within, pieces] at none
            omega

theorem space_after_share {more : Nat} (share : limits.share usage.taken length = more + 1)
    (writes : Nat) :
    limits.space ⟨writes, usage.taken + (more + 1)⟩ =
      (limits.space usage).map (· - (more + 1)) := by
  unfold space
  split
  · rename_i none
    have nothing : limits.share usage.taken length = 0 := by
      unfold SinkLimits.share
      cases limits.room <;> simp [none]
    omega
  · cases limits.room with
    | none => rfl
    | some most => simp [Nat.sub_sub]

theorem writeAll_full (limits : SinkLimits) (usage : SinkUsage) (earlier : List Bytes)
    (byte : UInt8) (rest : Bytes)
    (none : limits.share usage.taken (byte :: rest).length = 0) :
    ∃ after, limits.sink.recording.writeAll (usage, earlier) (byte :: rest) =
      ((after, [[]] ++ earlier), some limits.refusal) := by
  obtain ⟨writes, settled⟩ := limits.settled_write usage (byte :: rest)
  rw [none] at settled
  have answer := (limits.sink.write usage (byte :: rest)).settled_map
    fun count after => (after, (byte :: rest).take count :: earlier)
  rw [Sink.writeAll]
  simp only [Sink.recording, answer, settled]
  unfold refusal
  cases limits.refusesSilently <;> exact ⟨_, rfl⟩

theorem writeAll_share (limits : SinkLimits) (usage : SinkUsage) (earlier : List Bytes)
    (byte : UInt8) (rest : Bytes) {more : Nat}
    (share : limits.share usage.taken (byte :: rest).length = more + 1) :
    ∃ writes, limits.sink.recording.writeAll (usage, earlier) (byte :: rest) =
      limits.sink.recording.writeAll
        (⟨writes, usage.taken + (more + 1)⟩, (byte :: rest).take (more + 1) :: earlier)
        (rest.drop more) := by
  obtain ⟨writes, settled⟩ := limits.settled_write usage (byte :: rest)
  rw [share] at settled
  have answer := (limits.sink.write usage (byte :: rest)).settled_map
    fun count after => (after, (byte :: rest).take count :: earlier)
  rw [Sink.writeAll]
  simp only [Sink.recording, answer, settled, Nat.add_one_ne_zero, false_and, ↓reduceIte]
  exact ⟨writes, rfl⟩

/-- What comes of writing a whole buffer, share by share. -/
theorem writeAll_spends (limits : SinkLimits) (usage : SinkUsage) (earlier : List Bytes)
    (buffer : Bytes) :
    ∃ after pieces failure,
      limits.sink.recording.writeAll (usage, earlier) buffer =
        ((after, pieces ++ earlier), failure) ∧
      (Sink.Fits (limits.space usage) buffer.length →
        failure = none ∧ pieces.reverse.flatten = buffer ∧
          limits.space after = (limits.space usage).map (· - buffer.length)) ∧
      ∀ room, limits.space usage = some room → room < buffer.length →
        failure = some limits.refusal ∧ pieces.reverse.flatten = buffer.take room := by
  -- On the length of what is left to write: each share leaves less.
  induction length : buffer.length using Nat.strongRecOn generalizing usage earlier buffer with
  | ind bound shorter =>
      cases buffer with
      | nil =>
          refine ⟨usage, [], none, by simp [Sink.writeAll], fun _ => ⟨rfl, rfl, ?_⟩, ?_⟩
          · subst length
            cases limits.space usage <;> rfl
          · intro room _ less
            subst length
            cases less
      | cons byte rest =>
          cases share : limits.share usage.taken (byte :: rest).length with
          | zero =>
              obtain ⟨after, written⟩ := limits.writeAll_full usage earlier byte rest share
              have full := space_of_no_share (by simp) share
              refine ⟨after, [[]], _, written, fun fits => ?_, ?_⟩
              · have nothing := fits 0 full
                simp [← length] at nothing
              · intro room left less
                cases full.symm.trans left
                exact ⟨rfl, rfl⟩
          | succ more =>
              obtain ⟨writes, written⟩ := limits.writeAll_share usage earlier byte rest share
              have spent := space_after_share share writes
              have part : more + 1 ≤ (byte :: rest).length := share ▸ share_le_length
              obtain ⟨after, pieces, failure, further, fits, spills⟩ :=
                shorter (rest.drop more).length (by simp at length ⊢; omega)
                  ⟨writes, usage.taken + (more + 1)⟩ ((byte :: rest).take (more + 1) :: earlier)
                  (rest.drop more) rfl
              refine ⟨after, pieces ++ [(byte :: rest).take (more + 1)], failure, ?_, ?_, ?_⟩
              · rw [written, further]
                simp
              · intro within
                obtain ⟨rfl, all, left⟩ := fits (by
                  intro space there
                  rw [spent, Option.map_eq_some_iff] at there
                  obtain ⟨before, there, rfl⟩ := there
                  have all := within before there
                  simp at length ⊢
                  omega)
                refine ⟨rfl, ?_, ?_⟩
                · simp [all]
                · rw [left, spent, Option.map_map]
                  congr 1
                  funext space
                  simp at part length ⊢
                  omega
              · intro room left less
                have enough : more + 1 ≤ room := share ▸ share_le_space left
                obtain ⟨rfl, some⟩ := spills (room - (more + 1)) (by rw [spent, left]; rfl) (by
                  simp at length ⊢
                  omega)
                refine ⟨rfl, ?_⟩
                calc (pieces ++ [(byte :: rest).take (more + 1)]).reverse.flatten
                    = (byte :: rest).take (more + 1) ++
                        ((byte :: rest).drop (more + 1)).take (room - (more + 1)) := by
                      simp [some]
                  _ = (byte :: rest).take room := by
                      rw [← List.take_add, Nat.add_sub_cancel' enough]

theorem hasRoom (limits : SinkLimits) : limits.sink.HasRoom limits.space limits.refusal := by
  constructor
  · intro usage earlier buffer within
    obtain ⟨after, pieces, failure, written, fits, _⟩ := limits.writeAll_spends usage earlier buffer
    obtain ⟨rfl, all, left⟩ := fits within
    exact ⟨after, pieces, written, all, left⟩
  · intro usage earlier buffer room left less
    obtain ⟨after, pieces, failure, written, _, spills⟩ :=
      limits.writeAll_spends usage earlier buffer
    obtain ⟨rfl, part⟩ := spills room left less
    exact ⟨after, pieces, written, part⟩

end SinkLimits

end ArchiveTraversal
