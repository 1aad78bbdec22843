import ArchiveTraversal.Proofs.Decoder.Yield
import ArchiveTraversal.Proofs.Session.LockStep
import ArchiveTraversal.Proofs.Unpack.Preparation

/-!
Plain data on its way into a file. Data is plain if it is content, or answers that give nothing:
then it is for the reader to say where it is cut. What becomes of it can be told piece by piece as
the archive has it, without a word of chunks. A cut within a piece makes no difference to whether
the limit is exceeded, and a piece raises the cancel flag with its last byte, which all cuts leave
for last.
-/

namespace ArchiveTraversal

open Decoder

namespace Decoder

/-- It is content, or an answer that gives nothing. -/
def DataItem.Plain (item : DataItem) : Prop :=
  match item.serving with
  | .raw count _ => count ≤ 0
  | .content _ => True

theorem served_of_plain {data : List DataItem} (plain : ∀ item ∈ data, item.Plain)
    (capacity other : Nat) : served other data = served capacity data := by
  induction data with
  | nil => rfl
  | cons item rest ih =>
      have first := plain item List.mem_cons_self
      have others := ih fun later member => plain later (List.mem_cons_of_mem _ member)
      cases serving : item.serving with
      | raw count bytes =>
          rw [DataItem.Plain, serving] at first
          simp only [served, serving]
          rw [if_pos first, if_pos first]
      | content bytes => simp only [served, serving, others]

end Decoder

/-- How data has gone into a file: how that ended, what is in the file then, and the cancel flag. -/
structure Poured where
  walk : Walk UnpackError
  content : Bytes
  flag : Bool

def Poured.after (bytes : Bytes) (poured : Poured) : Poured :=
  { poured with content := bytes ++ poured.content }

/-- How plain data goes into a file, unless it exceeds the limit on the way. -/
def pour (path : Path) (limit : Option Nat) (flag : Bool) (total : Nat) :
    List DataItem → Option Poured
  | [] => some (if flag then ⟨.stopped .cancelled, [], true⟩ else ⟨.complete, [], false⟩)
  | item :: rest =>
      if flag then some ⟨.stopped .cancelled, [], true⟩
      else match item.serving with
        | .raw count _ =>
            let reason := item.diagnostic.reason (Session.dataCode count)
            some ⟨if count < 0 then .unreadable (.reading path .data reason) else .complete, [],
              item.cancels⟩
        | .content bytes =>
            if bytes = [] then some ⟨.complete, [], item.cancels⟩
            else if limit.any (· < total + bytes.length) then none
            else (pour path limit item.cancels (total + bytes.length) rest).map (.after bytes)

section

variable {path : Path} {limit : Option Nat} {total capacity : Nat} {handle : Handle}

theorem pour_raised (path : Path) (limit : Option Nat) (total : Nat) (data : List DataItem) :
    pour path limit true total data = some ⟨.stopped .cancelled, [], true⟩ := by
  cases data <;> rfl

theorem pour_of_empty (positive : 0 < capacity) (empty : (handle.readData capacity).1.count = 0) :
    pour path limit false total handle.data =
      some ⟨.complete, [], (handle.readData capacity).1.cancels⟩ := by
  have serves := handle.readData_serves capacity
  generalize handle.readData capacity = read at *
  cases serves with
  | nothing left =>
      rw [left]
      rfl
  | raw left serving =>
      dsimp only at empty
      rw [left]
      simp [pour, serving, empty]
  | whole left serving =>
      have none := List.length_eq_zero_iff.mp (Int.ofNat_eq_zero.mp empty)
      rw [left]
      simp [pour, serving, none]
  | part => dsimp only at empty; omega

theorem pour_of_negative (negative : (handle.readData capacity).1.count < 0) :
    pour path limit false total handle.data =
      some ⟨.unreadable (.reading path .data ((handle.readData capacity).2.reason
        (Session.dataCode (handle.readData capacity).1.count))), [],
        (handle.readData capacity).1.cancels⟩ := by
  have serves := handle.readData_serves capacity
  generalize handle.readData capacity = read at *
  cases serves with
  | nothing => cases negative
  | raw left serving =>
      dsimp only at negative
      rw [left]
      simp [pour, serving, negative, Handle.reason]
  | whole => exact absurd negative (Int.not_lt.mpr (Int.natCast_nonneg _))
  | part => exact absurd negative (Int.not_lt.mpr (Int.natCast_nonneg _))

theorem pour_of_filled (plain : ∀ item ∈ handle.data, item.Plain)
    (filled : 0 < (handle.readData capacity).1.count) :
    pour path limit false total handle.data =
      let chunk := (handle.readData capacity).1.filled
      if limit.any (· < total + chunk.length) then none
      else (pour path limit (handle.readData capacity).1.cancels (total + chunk.length)
        (handle.readData capacity).2.data).map (.after chunk) := by
  have serves := handle.readData_serves capacity
  generalize handle.readData capacity = read at *
  cases serves with
  | nothing => cases filled
  | @raw item _ _ _ left serving =>
      have first := plain item (by simp [left])
      rw [DataItem.Plain, serving] at first
      exact absurd first (Int.not_le.mpr filled)
  | whole left serving short =>
      have some := List.ne_nil_of_length_pos (Int.ofNat_lt.mp filled)
      rw [left]
      simp [pour, serving, some]
  | @part _ rest bytes left serving long =>
      have some := List.ne_nil_of_length_pos (Nat.zero_lt_of_lt long)
      have more := List.ne_nil_of_length_pos (List.length_drop ▸ Nat.sub_pos_of_lt long)
      have length : (bytes.take capacity).length + (bytes.drop capacity).length = bytes.length := by
        rw [← List.length_append, List.take_append_drop]
      rw [left]
      simp only [pour, serving, some, more, ↓reduceIte, Bool.false_eq_true, ← length,
        Nat.add_assoc]
      -- If the part that is read goes past the limit, so does the whole piece.
      by_cases exceeds : limit.any (· < total + (bytes.take capacity).length) = true
      · have all : limit.any (· < total +
            ((bytes.take capacity).length + (bytes.drop capacity).length)) = true := by
          cases limit with
          | none => cases exceeds
          | some bound =>
              simp only [Option.any_some, decide_eq_true_eq] at exceeds ⊢
              omega
        rw [if_pos all, if_pos exceeds]
      · rw [if_neg exceeds]
        split
        · rfl
        · rw [Option.map_map]
          congr 1
          funext poured
          rw [Function.comp_apply, Poured.after, Poured.after, Poured.after,
            ← List.append_assoc, List.take_append_drop]

end

theorem Session.OnData.readChunk_flag {session : Session} (onData : session.OnData) (host : Host) :
    (session.readChunk host).host.cancelled = (host.cancelled || session.reply.cancels) := by
  rw [onData.readChunk_eq]
  split <;> exact Host.raiseIf_cancelled ..

theorem Decoder.Handle.readData_plain {handle : Handle} (capacity : Nat)
    (plain : ∀ item ∈ handle.data, item.Plain) :
    ∀ item ∈ (handle.readData capacity).2.data, item.Plain := by
  have serves := handle.readData_serves capacity
  generalize handle.readData capacity = read at *
  cases serves with
  | nothing left => simp [left]
  | raw left =>
      rw [left] at plain
      exact fun later member => plain later (List.mem_cons_of_mem _ member)
  | whole left =>
      rw [left] at plain
      exact fun later member => plain later (List.mem_cons_of_mem _ member)
  | part left =>
      rw [left] at plain
      rintro later (_ | ⟨_, member⟩)
      · trivial
      · exact plain later (List.mem_cons_of_mem _ member)

namespace UnpackJob

variable {job : UnpackJob} {session : Session}

theorem writer_visit (job : UnpackJob) (written : Written) (chunk : Bytes) :
    job.writer.visit written chunk =
      if job.sizeLimit.any (· < written.total + chunk.length) then
        (written, some (.sizeLimitExceeded (written.total + chunk.length)
          (job.sizeLimit.getD 0)))
      else (⟨chunk :: written.chunks, written.total + chunk.length⟩, none) := by
  unfold writer Safety.checkSize
  cases job.sizeLimit with
  | none => rfl
  | some bound =>
      by_cases exceeds : bound < written.total + chunk.length <;> simp [exceeds]

theorem writer_halts_iff (job : UnpackJob) (host : Host) :
    job.writer.halt host = none ↔ host.cancelled = false := by
  cases raised : host.cancelled <;> simp [writer, raised]

/-- A walk into a file has gone as was to be expected of its data, or has exceeded the limit. -/
def Pours (job : UnpackJob) (written : Written) (outcome : Outcome (Walk UnpackError × Written)) :
    Option Poured → Prop
  | none => ∃ bound current, job.sizeLimit = some bound ∧
      outcome.value.1 = .stopped (.sizeLimitExceeded current bound)
  | some poured => outcome.value.1 = poured.walk ∧
      outcome.value.2.content = written.content ++ poured.content ∧
      outcome.host.cancelled = poured.flag

theorem Pours.after {written : Written} {chunk : Bytes} {total : Nat}
    {outcome : Outcome (Walk UnpackError × Written)} {poured : Option Poured}
    (pours : job.Pours ⟨chunk :: written.chunks, total⟩ outcome poured) :
    job.Pours written outcome (poured.map (.after chunk)) := by
  cases poured with
  | none => exact pours
  | some poured =>
      obtain ⟨ends, content, flag⟩ := pours
      refine ⟨ends, ?_, flag⟩
      rw [content, Poured.after]
      simp [Written.content]

theorem walk_pours (job : UnpackJob) (written : Written) (onData : session.OnData)
    (positive : 0 < session.setup.options.chunkSize)
    (plain : ∀ item ∈ session.handle.data, item.Plain) (host : Host) :
    job.Pours written (session.forEachChunk job.writer written host)
      (pour session.path job.sizeLimit host.cancelled written.total session.handle.data) := by
  -- Along the walk: a read takes off the data what pouring takes off it.
  fun_induction Session.forEachChunk job.writer written session host with
  | case1 written session host cause halts =>
      simp only [writer] at halts
      split at halts
      · rename_i raised
        cases halts
        rw [raised, pour_raised]
        exact ⟨rfl, (List.append_nil _).symm, raised⟩
      · cases halts
  | case2 written session host goesOn _ error failed =>
      have negative : session.reply.count < 0 := onData.readChunk_error failed
      have read : (session.readChunk host).value = .error error := failed
      have flag := onData.readChunk_flag host
      rw [onData.readChunk_eq, if_pos negative] at read
      rw [(job.writer_halts_iff host).mp goesOn] at flag ⊢
      rw [pour_of_negative negative]
      exact ⟨congrArg _ (Except.error.inj read).symm, (List.append_nil _).symm, flag⟩
  | case3 written session host goesOn _ empty =>
      have none := Int.le_antisymm (onData.readChunk_empty positive empty)
        (onData.readChunk_ok empty).1
      have flag := onData.readChunk_flag host
      rw [(job.writer_halts_iff host).mp goesOn] at flag ⊢
      rw [pour_of_empty positive none]
      exact ⟨rfl, (List.append_nil _).symm, flag⟩
  | case4 written session host goesOn _ byte more filled last cause refuses =>
      obtain ⟨_, chunk, _⟩ := onData.readChunk_ok filled
      rw [(job.writer_halts_iff host).mp goesOn,
        pour_of_filled plain (onData.readChunk_filled filled), ← chunk]
      rw [writer_visit] at refuses
      split at refuses
      · rename_i exceeds
        cases refuses
        dsimp only
        rw [if_pos exceeds]
        cases limit : job.sizeLimit with
        | none => simp [limit] at exceeds
        | some bound => exact ⟨bound, _, limit, rfl⟩
      · cases refuses
  | case5 written session host goesOn _ byte more filled next accepted ih =>
      obtain ⟨_, chunk, handle, setup, stays⟩ := onData.readChunk_ok filled
      have flag := onData.readChunk_flag host
      have lowered := (job.writer_halts_iff host).mp goesOn
      have rest := ih stays (by rw [setup]; exact positive)
        (by rw [handle]; exact session.handle.readData_plain _ plain)
      have path : (session.readChunk host).session.path = session.path := congrArg Setup.path setup
      rw [path, flag, lowered, handle] at rest
      rw [lowered, pour_of_filled plain (onData.readChunk_filled filled), ← chunk]
      rw [writer_visit] at accepted
      split at accepted
      · cases accepted
      · rename_i fits
        cases accepted
        dsimp only
        rw [if_neg fits]
        exact rest.after

end UnpackJob

end ArchiveTraversal
