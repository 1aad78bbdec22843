import ArchiveTraversal.Proofs.Session.LockStep
import ArchiveTraversal.Proofs.Unpack.Heeding
import ArchiveTraversal.Proofs.Unpack.PassedOver

/-!
An archive without some of the members that an unpack passes over. Two runs are followed side by
side, one on the whole archive and one on what is left of it. Where a member is missing, the one
passes over it and the other does nothing; everywhere else they are in lock step. So they end alike,
with the same tree and the same reports, and the one has counted and asked for more members.
-/

namespace ArchiveTraversal

open Decoder

/-- A list without those of its items that are gone, where only some are counted, from zero. -/
def leaveOut {Item : Type} (counts : Item → Bool) (gone : Nat → Bool) : List Item → List Item
  | [] => []
  | item :: rest =>
      if counts item then
        if gone 0 then leaveOut counts (fun index => gone (index + 1)) rest
        else item :: leaveOut counts (fun index => gone (index + 1)) rest
      else item :: leaveOut counts gone rest

section

variable {Item : Type} {counts : Item → Bool}

theorem leaveOut_none (items : List Item) : leaveOut counts (fun _ => false) items = items := by
  induction items with
  | nil => rfl
  | cons item rest ih => simp [leaveOut, ih]

theorem leaveOut_length_le (counts : Item → Bool) (gone : Nat → Bool) (items : List Item) :
    (leaveOut counts gone items).length ≤ items.length := by
  induction items generalizing gone with
  | nil => exact Nat.le_refl _
  | cons item rest ih =>
      simp only [leaveOut]
      split
      · split
        · exact Nat.le_succ_of_le (ih _)
        · exact Nat.succ_le_succ (ih _)
      · exact Nat.succ_le_succ (ih _)

theorem leaveOut_append {gone : Nat → Bool} {items : List Item}
    (uncounted : ∀ item ∈ items, counts item = false) (more : List Item) :
    leaveOut counts gone (items ++ more) = items ++ leaveOut counts gone more := by
  induction items with
  | nil => rfl
  | cons item rest ih =>
      have here := uncounted item List.mem_cons_self
      simp only [List.cons_append, leaveOut, here, Bool.false_eq_true, ↓reduceIte]
      rw [ih fun other member => uncounted other (List.mem_cons_of_mem _ member)]

theorem leaveOut_append_last (gone : Nat → Bool) (items : List Item) {more : List Item}
    (uncounted : ∀ item ∈ more, counts item = false) :
    leaveOut counts gone (items ++ more) = leaveOut counts gone items ++ more := by
  induction items generalizing gone with
  | nil => simpa [leaveOut] using leaveOut_append uncounted ([] : List Item)
  | cons item rest ih =>
      simp only [List.cons_append, leaveOut, ih]
      split
      · split <;> rfl
      · rfl

end

/-- The script of an archive from which the members at some places have been taken. -/
def Decoder.Script.without (gone : Nat → Bool) (script : Script) : Script :=
  { script with headers := leaveOut (fun _ => true) gone script.headers }

def Tally.passing (tally : Tally) (more : Nat) : Tally :=
  { tally with skipped := tally.skipped + more }

namespace Host

theorem Acts.unique {before after : Host} {acts others : List Record}
    (first : before.Acts after acts) (second : before.Acts after others) : acts = others := by
  obtain ⟨records, adds, rfl⟩ := first
  obtain ⟨_, addsToo, rfl⟩ := second
  rw [adds.unique addsToo]

theorem Acts.no_request {before after : Host} {acts : List Record} (done : before.Acts after acts)
    (none : after.requests = before.requests) : ∀ entry ∈ acts, entry.isRequest = false := by
  obtain ⟨records, adds, rfl⟩ := done
  rw [requests, adds, List.countP_append, ← requests] at none
  have nothing : records.countP Record.isRequest = 0 := by omega
  intro entry member
  simpa using List.countP_eq_zero.mp nothing entry (List.mem_filter.mp member).1

theorem Agrees.follow {one other : Host} (agrees : one.Agrees other) (done : Host) :
    InStep one (one.follow done) other (other.follow done) :=
  ⟨⟨rfl, agrees.flag⟩, _, (one.follow_adds done).acts, (other.follow_adds done).acts⟩

theorem Agrees.fill {one other : Host} (agrees : one.Agrees other) (location : Location)
    (content : Bytes) :
    InStep one (one.fill location content) other (other.fill location content) :=
  ⟨⟨by simp only [Host.fill, agrees.tree], agrees.flag⟩, [], ⟨[], .refl one, rfl⟩,
    ⟨[], .refl other, rfl⟩⟩

end Host

open Host

namespace UnpackJob

variable {job : UnpackJob} {tally fewer : Tally} {missing : Nat} {session other : Session}
  {host otherHost : Host}

theorem writer_heedless (job : UnpackJob) : Session.Heedless job.writer := by
  intro one other flag
  simp only [writer, flag]

theorem report_inStep (job : UnpackJob) (name : String) (counted : tally = fewer.passing missing)
    (agrees : host.Agrees otherHost) :
    (job.report name tally host).1 =
        (job.report name fewer otherHost).1.map (Tally.passing · missing) ∧
      InStep host (job.report name tally host).2 otherHost
        (job.report name fewer otherHost).2 := by
  subst counted
  have told := agrees.record (.progress name fewer.bytes)
  constructor
  · unfold report
    cases proceed : (job.observer fewer.files name fewer.bytes).proceed <;>
      simp [Tally.passing, proceed, Except.map]
  · exact told.trans (told.agrees.raiseIf _)

theorem fillFile_inStep (job : UnpackJob) (name : String) (location : Location)
    (counted : tally = fewer.passing missing) (alike : session.Alike other)
    (agrees : host.Agrees otherHost) :
    (job.fillFile name location tally session host).value =
        (job.fillFile name location fewer other otherHost).value.map (Tally.passing · missing) ∧
      (job.fillFile name location tally session host).session.Alike
        (job.fillFile name location fewer other otherHost).session ∧
      InStep host (job.fillFile name location tally session host).host otherHost
        (job.fillFile name location fewer other otherHost).host := by
  have bytes : fewer.bytes = tally.bytes := by rw [counted]; rfl
  obtain ⟨value, alikeAfter, walked⟩ :=
    alike.forEachChunk job.writer_heedless { total := tally.bytes } agrees
  simp only [fillFile, bytes, value]
  generalize session.forEachChunk job.writer { total := tally.bytes } host = walk at *
  generalize other.forEachChunk job.writer { total := tally.bytes } otherHost = otherWalk at *
  have filled := walked.trans (walked.agrees.fill location walk.value.2.content)
  cases walk.value.1 with
  | unreadable error => exact ⟨rfl, alikeAfter, filled⟩
  | stopped error => exact ⟨rfl, alikeAfter, filled⟩
  | complete =>
      have written := filled.event (.memberWritten name) (.memberWritten name)
      have same : { tally with files := tally.files + 1, bytes := walk.value.2.total } =
          Tally.passing { fewer with files := fewer.files + 1, bytes := walk.value.2.total }
            missing := by rw [counted]; rfl
      obtain ⟨result, told⟩ := job.report_inStep name same written.agrees
      exact ⟨result, alikeAfter, written.trans told⟩

theorem treat_inStep (job : UnpackJob) (visit otherVisit : Visit)
    (info : otherVisit.info = visit.info)
    (counted : visit.tally = otherVisit.tally.passing missing)
    (alike : visit.session.Alike otherVisit.session) (agrees : visit.host.Agrees otherVisit.host) :
    (job.treat visit).value = (job.treat otherVisit).value.map (Tally.passing · missing) ∧
      (job.treat visit).session.Alike (job.treat otherVisit).session ∧
      InStep visit.host (job.treat visit).host otherVisit.host (job.treat otherVisit).host := by
  rw [treat, treat, unpackMember_prepare, unpackMember_prepare, visit.host.prepare_eq,
    otherVisit.host.prepare_eq, info, agrees.tree, counted]
  obtain ⟨preparation, done⟩ := (alone visit.host.tree).prepare job.output visit.info
  have prepared := agrees.follow done
  have passed : { otherVisit.tally.passing missing with
      skipped := (otherVisit.tally.passing missing).skipped + 1 } =
      Tally.passing { otherVisit.tally with skipped := otherVisit.tally.skipped + 1 } missing := by
    simp only [Tally.passing, Nat.add_right_comm]
  cases preparation with
  | refused error => exact ⟨congrArg _ passed, alike, prepared⟩
  | obstructed error => exact ⟨rfl, alike, prepared⟩
  | directory => exact ⟨rfl, alike, prepared⟩
  | blocked => exact ⟨congrArg _ passed, alike, prepared⟩
  | file location =>
      obtain ⟨value, alikeAfter, filled⟩ :=
        job.fillFile_inStep visit.info.path location rfl alike prepared.agrees
      exact ⟨value, alikeAfter, prepared.trans filled⟩

/-- One session waits for its next header, and so does another, which will be given the same headers
without those that are gone. -/
structure Trails (gone : Nat → Bool) (one other : Session) : Prop where
  path : other.path = one.path
  capacity : other.setup.options.chunkSize = one.setup.options.chunkSize
  number : other.handle.number = one.handle.number
  going : one.Going
  goingToo : other.Going
  headers : other.handle.headers = leaveOut (fun _ => true) gone one.handle.headers

theorem Trails.abreast {gone : Nat → Bool} (trails : Trails gone session other)
    (next : (leaveOut (fun _ => true) gone session.handle.headers).head? =
      session.handle.headers.head?) : session.Abreast other :=
  ⟨trails.path, trails.number, trails.going, trails.goingToo, by rw [trails.headers, next]⟩

theorem Trails.abreast_of_none (trails : Trails (fun _ => false) session other) :
    session.Abreast other :=
  trails.abreast (by rw [leaveOut_none])

theorem Trails.cons {gone : Nat → Bool} (trails : Trails gone session other) {item : HeaderItem}
    {rest : List HeaderItem} (left : session.handle.headers = item :: rest) :
    other.handle.headers =
      if gone 0 then leaveOut (fun _ => true) (fun index => gone (index + 1)) rest
      else item :: leaveOut (fun _ => true) (fun index => gone (index + 1)) rest := by
  rw [trails.headers, left]
  rfl

/-- What comes of a run when members that it passes over are gone: it ends alike, and has done the
same but for the requests for their headers. -/
def Curtails (job : UnpackJob) (gone : Nat → Bool) (fewer : Tally) (missing : Nat)
    (other : Session) (host otherHost : Host) (final : Outcome (Except UnpackError Tally)) : Prop :=
  ∃ visits last, job.Goes fewer other otherHost visits last ∧
    final.value = last.value.map (Tally.passing · missing) ∧ final.host.Agrees last.host ∧
    ∃ acts, host.Acts final.host acts ∧
      otherHost.Acts last.host (leaveOut Record.isRequest gone acts)

theorem Curtails.of_inStep {visits : List Visit} {final last : Outcome (Except UnpackError Tally)}
    (goes : job.Goes fewer other otherHost visits last)
    (value : final.value = last.value.map (Tally.passing · missing))
    (inStep : InStep host final.host otherHost last.host) :
    job.Curtails (fun _ => false) fewer missing other host otherHost final := by
  obtain ⟨acts, done, doneToo⟩ := inStep.acts
  exact ⟨visits, last, goes, value, inStep.agrees, acts, done, by rwa [leaveOut_none]⟩

/-- The members that are gone are among those that a run passes over, and have not raised the flag. -/
def Spares (job : UnpackJob) (gone : Nat → Bool) (visits : List Visit)
    (headers : List HeaderItem) : Prop :=
  ∀ index, gone index = true → ∃ visit item, visits[index]? = some visit ∧
    headers[index]? = some item ∧ item.cancels = false ∧ job.PassesOver visit

theorem Spares.none_of_nil {gone : Nat → Bool} {headers : List HeaderItem}
    (spares : job.Spares gone [] headers) : gone = fun _ => false := by
  funext index
  rw [Bool.eq_false_iff]
  intro out
  obtain ⟨_, _, visited, _⟩ := spares index out
  simp at visited

theorem Spares.none_of_broken {gone : Nat → Bool} {visit : Visit} {headers : List HeaderItem}
    {error : UnpackError} (spares : job.Spares gone [visit] headers)
    (broken : (job.treat visit).value = .error error) : gone = fun _ => false := by
  funext index
  rw [Bool.eq_false_iff]
  intro out
  obtain ⟨other, _, visited, _, _, next, done, _⟩ := spares index out
  obtain ⟨_, rfl⟩ := List.getElem?_eq_some_iff.mp visited
  simp [broken] at done

theorem Spares.tail {gone : Nat → Bool} {visit : Visit} {later : List Visit} {item : HeaderItem}
    {rest : List HeaderItem} (spares : job.Spares gone (visit :: later) (item :: rest)) :
    job.Spares (fun index => gone (index + 1)) later rest :=
  fun index out => spares (index + 1) out

theorem treat_gone {header : Header} {item : HeaderItem} (going : session.Going)
    (movedTo : session.MovedTo item header (session.advance host).session)
    (unraised : item.cancels = false) (grounded : Grounded job.output host.tree)
    (passes : job.PassesOver (meets tally session host header)) :
    (job.treat (meets tally session host header)).value = .ok (tally.passing 1) ∧
      (job.treat (meets tally session host header)).session = (session.advance host).session ∧
      host.Agrees (job.treat (meets tally session host header)).host ∧
      host.Acts (job.treat (meets tally session host header)).host
        [.call session.handle.number .nextHeader] := by
  have cancels : session.handle.nextHeader.1.cancels = false := by
    simp only [Handle.nextHeader, movedTo.left, unraised]
  obtain ⟨event, _, ends⟩ := treat_passedOver (meets_grounded tally session header grounded) passes
  obtain ⟨told, asked⟩ := going.advance_host host
  have acts := going.advance_acts host
  rw [cancels] at acts
  rw [ends]
  refine ⟨rfl, rfl, ⟨(session.advance_extends host).tree, ?_⟩, acts.trans (event_acts ..)⟩
  have flag : (session.advance host).host.cancelled =
      (host.cancelled || session.handle.nextHeader.1.cancels) := by
    rw [asked]
    exact Host.raiseIf_cancelled ..
  rw [cancels, Bool.or_false] at flag
  exact flag

theorem meets_inStep (job : UnpackJob) {header : Header} (abreast : session.Abreast other)
    (capacity : other.setup.options.chunkSize = session.setup.options.chunkSize)
    (counted : tally = fewer.passing missing) (agrees : host.Agrees otherHost)
    (moved : (session.advance host).value = .ok (some header)) :
    (other.advance otherHost).value = .ok (some header) ∧
      (job.treat (meets tally session host header)).value =
        (job.treat (meets fewer other otherHost header)).value.map (Tally.passing · missing) ∧
      (job.treat (meets tally session host header)).session.Alike
        (job.treat (meets fewer other otherHost header)).session ∧
      (job.treat (meets tally session host header)).host.Agrees
        (job.treat (meets fewer other otherHost header)).host ∧
      ∃ quiet, (∀ entry ∈ quiet, entry.isRequest = false) ∧
        host.Acts (job.treat (meets tally session host header)).host
          (.call session.handle.number .nextHeader :: quiet) ∧
        otherHost.Acts (job.treat (meets fewer other otherHost header)).host
          (.call session.handle.number .nextHeader :: quiet) := by
  obtain ⟨value, kindred, advanced⟩ := abreast.advance agrees
  have alike : (session.advance host).session.Alike (other.advance otherHost).session :=
    ⟨kindred header moved, by rw [Session.advance_setup, Session.advance_setup, capacity]⟩
  obtain ⟨result, alikeAfter, treated⟩ := job.treat_inStep (meets tally session host header)
    (meets fewer other otherHost header) rfl counted alike advanced.agrees
  obtain ⟨first, done, doneToo⟩ := advanced.acts
  obtain ⟨rest, further, furtherToo⟩ := treated.acts
  obtain rfl := done.unique (abreast.going.advance_acts host)
  have none := further.no_request (job.unpackMember_requests ..)
  refine ⟨value.trans moved, result, alikeAfter, treated.agrees, _, ?_, done.trans further,
    doneToo.trans furtherToo⟩
  intro entry member
  rcases List.mem_append.mp member with flag | later
  · rw [Record.eq_of_raised flag]
    rfl
  · exact none entry later

theorem Curtails.of_gone {gone : Nat → Bool} {between : Host} {number : Nat}
    {final : Outcome (Except UnpackError Tally)}
    (onwards : job.Curtails (fun index => gone (index + 1)) fewer missing other between otherHost
      final)
    (out : gone 0 = true) (asked : host.Acts between [.call number .nextHeader]) :
    job.Curtails gone fewer missing other host otherHost final := by
  obtain ⟨visits, last, goes, value, agrees, acts, done, doneToo⟩ := onwards
  refine ⟨visits, last, goes, value, agrees, _, asked.trans done, ?_⟩
  simpa only [List.singleton_append, leaveOut, Record.isRequest, ↓reduceIte, out] using doneToo

theorem Curtails.of_kept {gone : Nat → Bool} {header : Header} {next : Tally} {between : Host}
    {number : Nat} {quiet : List Record} {final : Outcome (Except UnpackError Tally)}
    (lowered : otherHost.cancelled = false)
    (moved : (other.advance otherHost).value = .ok (some header))
    (done : (job.treat (meets fewer other otherHost header)).value = .ok next)
    (onwards : job.Curtails (fun index => gone (index + 1)) next missing
      (job.treat (meets fewer other otherHost header)).session between
      (job.treat (meets fewer other otherHost header)).host final)
    (kept : gone 0 = false) (none : ∀ entry ∈ quiet, entry.isRequest = false)
    (acted : host.Acts between (.call number .nextHeader :: quiet))
    (actedToo : otherHost.Acts (job.treat (meets fewer other otherHost header)).host
      (.call number .nextHeader :: quiet)) :
    job.Curtails gone fewer missing other host otherHost final := by
  obtain ⟨visits, last, goes, value, agrees, acts, further, furtherToo⟩ := onwards
  refine ⟨_, last, .member lowered moved done goes, value, agrees, _, acted.trans further, ?_⟩
  have joined := actedToo.trans furtherToo
  rw [List.cons_append, ← leaveOut_append none] at joined
  simpa only [List.cons_append, leaveOut, Record.isRequest, ↓reduceIte, kept,
    Bool.false_eq_true] using joined

theorem Goes.curtails {gone : Nat → Bool} {visits : List Visit}
    {final : Outcome (Except UnpackError Tally)}
    (goes : job.Goes tally session host visits final) (grounded : Grounded job.output host.tree)
    (counted : tally = fewer.passing missing) (trails : Trails gone session other)
    (agrees : host.Agrees otherHost) (spares : job.Spares gone visits session.handle.headers) :
    job.Curtails gone fewer
      (missing + (session.handle.headers.length - other.handle.headers.length)) other host otherHost
      final := by
  -- Where no member is gone any more, the headers are the same.
  have all : ∀ {missing : Nat} {one other : Session}, Trails (fun _ => false) one other →
      missing + (one.handle.headers.length - other.handle.headers.length) = missing := by
    intro missing one other trails
    rw [trails.headers, leaveOut_none, Nat.sub_self, Nat.add_zero]
  induction goes generalizing gone missing fewer other otherHost with
  | cancelled raised =>
      obtain rfl := spares.none_of_nil
      rw [all trails]
      exact .of_inStep (.cancelled (agrees.flag.trans raised)) rfl (.refl agrees)
  | unreadable lowered failed =>
      obtain rfl := spares.none_of_nil
      obtain ⟨value, _, inStep⟩ := trails.abreast_of_none.advance agrees
      rw [all trails]
      exact .of_inStep (.unreadable (agrees.flag.trans lowered) (value.trans failed)) rfl inStep
  | ended lowered ended =>
      obtain rfl := spares.none_of_nil
      obtain ⟨value, _, inStep⟩ := trails.abreast_of_none.advance agrees
      rw [all trails]
      exact .of_inStep (.ended (agrees.flag.trans lowered) (value.trans ended))
        (congrArg _ counted) inStep
  | stopped lowered moved broken =>
      obtain rfl := spares.none_of_broken broken
      obtain ⟨movedToo, value, _, after, quiet, _, done, doneToo⟩ :=
        job.meets_inStep trails.abreast_of_none trails.capacity counted agrees moved
      rw [broken] at value
      rw [all trails]
      cases result : (job.treat (meets _ other otherHost _)).value with
      | ok => rw [result] at value; cases value
      | error cause =>
          rw [result] at value
          cases value
          exact .of_inStep (.stopped (agrees.flag.trans lowered) movedToo result) rfl
            ⟨after, _, done, doneToo⟩
  | @member tally next session host header later final lowered moved done goes ih =>
      obtain ⟨item, movedTo⟩ := Session.movedTo_of_advance moved
      have headers := job.meets_headers tally session host header
      have onMember : (job.treat (meets tally session host header)).session.cursor = .onMember :=
        unpackMember_onMember movedTo.cursor movedTo.onData done
      have setup := job.meets_setup tally session host header
      have number := job.meets_number tally session host header
      have groundedAfter := treat_grounded (meets_grounded tally session header grounded)
      have rest := trails.cons movedTo.left
      rw [movedTo.left, ← headers] at spares
      rw [← headers] at rest
      cases out : gone 0 with
      | true =>
          obtain ⟨_, _, first, own, unraised, passes⟩ := spares 0 out
          cases first
          cases own
          obtain ⟨value, stays, unchanged, asked⟩ :=
            treat_gone trails.going movedTo unraised grounded passes
          rw [done] at value
          cases value
          rw [out, if_pos rfl] at rest
          have more : tally.passing 1 = fewer.passing (missing + 1) := by rw [counted]; rfl
          have onwards := ih groundedAfter more
            ⟨trails.path.trans (congrArg Setup.path setup.symm),
              trails.capacity.trans (congrArg (·.options.chunkSize) setup.symm),
              trails.number.trans number.symm, .inr onMember, trails.goingToo, rest⟩
            ⟨agrees.tree.trans unchanged.tree.symm, agrees.flag.trans unchanged.flag.symm⟩
            spares.tail
          have fits := leaveOut_length_le (fun _ => true) (fun index => gone (index + 1))
            (job.treat (meets tally session host header)).session.handle.headers
          have count : ∀ {longer shorter : Nat}, shorter ≤ longer →
              missing + (longer + 1 - shorter) = missing + 1 + (longer - shorter) := by omega
          rw [movedTo.left, ← headers, List.length_cons, rest, count fits, ← rest]
          exact onwards.of_gone out asked
      | false =>
          rw [out, if_neg (by simp)] at rest
          have first : (leaveOut (fun _ => true) gone session.handle.headers).head? =
              session.handle.headers.head? := by
            rw [← trails.headers, rest, movedTo.left]
            rfl
          obtain ⟨movedToo, value, alike, after, quiet, none, acted, actedToo⟩ :=
            job.meets_inStep (trails.abreast first) trails.capacity counted agrees moved
          rw [done] at value
          cases result : (job.treat (meets fewer other otherHost header)).value with
          | error => rw [result] at value; cases value
          | ok further =>
              rw [result] at value
              have onward : next = further.passing missing := Except.ok.inj value
              obtain ⟨itemToo, movedOther⟩ := Session.movedTo_of_advance movedToo
              have left := (job.unpackMember_headers header.info fewer
                (other.advance otherHost).session (other.advance otherHost).host).trans
                (List.cons.inj (movedOther.left.symm.trans rest)).2
              have onwards := ih groundedAfter onward
                ⟨alike.path, alike.capacity, alike.number, .inr onMember,
                  .inr (alike.cursor.trans onMember), left⟩
                after spares.tail
              rw [movedTo.left, ← headers, rest, List.length_cons, List.length_cons,
                Nat.add_sub_add_right, ← left]
              exact onwards.of_kept (agrees.flag.trans lowered) movedToo result out none acted
                actedToo

theorem forEachChunk_secure (job : UnpackJob) (written : Written) (session : Session) (host : Host)
    (error : SecurityError) :
    (session.forEachChunk job.writer written host).value.1 ≠ .stopped (.security error) := by
  fun_induction Session.forEachChunk job.writer written session host with
  | case1 _ _ _ cause halts =>
      simp only [writer] at halts
      split at halts
      · cases halts
        simp
      · cases halts
  | case2 => simp
  | case3 => simp
  | case4 written _ _ _ _ byte more _ _ cause refuses =>
      simp only [writer, Safety.checkSize] at refuses
      cases limit : job.sizeLimit with
      | none => simp [limit] at refuses
      | some bound =>
          simp only [limit] at refuses
          split at refuses
          · rename_i exceeds
            split at exceeds
            · cases exceeds
              cases refuses
              simp
            · cases exceeds
          · cases refuses
  | case5 _ _ _ _ _ _ _ _ _ _ ih => exact ih

theorem treat_secure (job : UnpackJob) (visit : Visit) (error : SecurityError) :
    (job.treat visit).value ≠ .error (.security error) := by
  have treats := job.treat_treats visit
  generalize job.treat visit = outcome at *
  cases treats with
  | @file _ location ready =>
      have secure := job.forEachChunk_secure { total := visit.tally.bytes } visit.session ready error
      have fills := job.fillFile_fills visit.tally visit.session ready visit.info.path location
      generalize job.fillFile _ location visit.tally visit.session ready = outcome at *
      cases fills with
      | unreadable => simp
      | stopped ends =>
          rintro failed
          cases failed
          exact secure ends
      | complete =>
          dsimp only [report]
          split <;> simp
  | _ => simp

theorem Goes.secure {visits : List Visit} {final : Outcome (Except UnpackError Tally)}
    (goes : job.Goes tally session host visits final) (error : SecurityError) :
    final.value ≠ .error (.security error) := by
  induction goes with
  | cancelled => simp
  | unreadable => simp
  | ended => simp
  | stopped _ _ broken => exact broken ▸ job.treat_secure _ error
  | member _ _ _ _ ih => exact ih

end UnpackJob

theorem Decoder.Script.without_none (script : Script) : script.without (fun _ => false) = script := by
  rw [Script.without, leaveOut_none]

theorem Session.close_acts (session : Session) (host : Host) :
    host.Acts (session.close host).2.2 [.call session.handle.number .free] := by
  obtain ⟨event, _, adds⟩ := session.close_adds host
  exact adds.acts

theorem Reader.openSession_acts (path : Path) (options : ReaderOptions) (host : Host) :
    ∃ acts, host.Acts ((new path options).openSession host).2 acts ∧
      ∀ entry ∈ acts, entry.isRequest = false := by
  obtain ⟨records, adds, setups⟩ := openSession_adds path options host
  refine ⟨_, adds.acts, fun entry member => ?_⟩
  rcases Record.setup_cases (setups entry (List.mem_filter.mp member).1) with
    ⟨number, call, rfl⟩ | ⟨_, _, _, rfl⟩
  · have setup := setups _ (List.mem_filter.mp member).1
    cases call with
    | nextHeader => cases setup
    | _ => rfl
  · rfl

section

variable {path output : Path} {options : UnpackOptions} {observer : Observer} {host : Host}
  {visits : List Visit} {result : Except UnpackError Tally × Host}

theorem Unpacks.secure (unpacks : Unpacks path output options observer host visits result)
    (error : SecurityError) : result.1 ≠ .error (.security error) := by
  cases unpacks with
  | refused => simp
  | obstructed => simp
  | ran _ _ goes => exact goes.secure error

theorem Unpacks.curtails {gone : Nat → Bool} {script : Script} {later : List (Option Script)}
    (unpacks : Unpacks path output options observer host visits result)
    (decoders : host.decoders = some script :: later)
    (spares : (options.job output observer).Spares gone visits script.headers) :
    let fewer := unpackArchive path output options observer
      { host with decoders := some (script.without gone) :: later }
    result.1 = fewer.1.map
        (Tally.passing · (script.headers.length - (script.without gone).headers.length)) ∧
      fewer.2.tree = result.2.tree ∧
      ∃ acts, host.Acts result.2 acts ∧
        host.Acts fewer.2 (leaveOut Record.isRequest gone acts) := by
  intro fewer
  obtain ⟨opening, opens, setup⟩ := Reader.openSession_acts path options.reader host
  -- Nothing is gone from an archive in which no member has been come to.
  have untouched : gone = (fun _ => false) →
      { host with decoders := some (script.without gone) :: later } = host := by
    rintro rfl
    rw [script.without_none, ← decoders]
  have alike : ∀ {acts : List Record}, gone = (fun _ => false) → result = fewer →
      (∀ tally, result.1 ≠ .ok tally) → host.Acts result.2 acts →
      result.1 = fewer.1.map
          (Tally.passing · (script.headers.length - (script.without gone).headers.length)) ∧
        fewer.2.tree = result.2.tree ∧
        ∃ acts, host.Acts result.2 acts ∧
          host.Acts fewer.2 (leaveOut Record.isRequest gone acts) := by
    rintro acts rfl rfl failed done
    refine ⟨?_, rfl, acts, done, by rwa [leaveOut_none]⟩
    cases ends : fewer.1 with
    | ok tally => exact absurd ends (failed tally)
    | error => rfl
  have same := unpacks.eq.2
  cases unpacks with
  | @refused error _ between refused =>
      have none := spares.none_of_nil
      rw [refused] at opens
      refine alike none ?_ (by simp) opens
      rw [same, ← untouched none]
  | @obstructed session between _ made opened =>
      have none := spares.none_of_nil
      rw [opened] at opens
      refine alike none ?_ (by simp)
        (opens.trans (session.close_acts { between with tree := made }))
      rw [same, ← untouched none]
  | @ran session between made _ final opened making goes =>
      obtain ⟨_, _, found, headers, _, start⟩ := Reader.openSession_opened opened
      rw [decoders] at found
      cases found
      have openedToo := Reader.openSession_other (leaveOut (fun _ => true) gone script.headers)
        decoders opened
      have trails : UnpackJob.Trails gone session
          (session.cut (script.without gone).headers (script.without gone).headers) :=
        ⟨rfl, rfl, rfl, .inl start, .inl start, by rw [headers]; rfl⟩
      have counted : ({} : Tally) = Tally.passing {} 0 := rfl
      have curtails := goes.curtails (grounded_of_made making) counted trails ⟨rfl, rfl⟩ (headers ▸ spares)
      obtain ⟨others, last, goesToo, value, agrees, acts, done, doneToo⟩ := curtails
      have unpacksToo := Unpacks.ran openedToo making goesToo
      have ends := unpacksToo.eq.2
      rw [opened] at opens
      have request : ∀ number, ∀ entry ∈ [Record.call number .free], entry.isRequest = false := by
        simp [Record.isRequest]
      rw [show fewer = _ from ends.symm]
      refine ⟨?_, ?_, opening ++ acts ++ [.call final.session.handle.number .free], ?_, ?_⟩
      · rw [value, headers, Nat.zero_add]
        rfl
      · rw [(Session.close_extends ..).tree, (Session.close_extends ..).tree, agrees.tree]
      · exact (opens.trans done).trans (Session.close_acts ..)
      · have number : final.session.handle.number = last.session.handle.number :=
          goes.number.trans goesToo.number.symm
        rw [leaveOut_append_last _ _ (request _), leaveOut_append setup, number]
        exact (opens.trans doneToo).trans (Session.close_acts ..)

end

/-- A member that is passed over does not matter. Whether its name or its kind is refused, or a
directory stands at its place: it leaves no trace but an entry in the log. So an archive without
some of these members, as long as their headers do not raise the cancel flag, is unpacked with the
same result but for their number, into the same tree, and by the same calls and with the same
reports but for the requests for their headers. And no unsafe member ends a run. -/
theorem unpackArchive_inert (path output : Path) (options : UnpackOptions) (observer : Observer)
    (host : Host) :
    let job := options.job output observer
    let ran := unpackArchive path output options observer host
    let visits := unpackVisits path output options observer host
    (∀ visit ∈ visits, job.PassesOver visit →
      ∃ event, ((∃ error, event = .memberSkipped visit.info.path error) ∨
          event = .memberBlocked visit.info.path) ∧
        job.treat visit =
          ⟨.ok (visit.tally.passing 1), visit.session, visit.host.event event⟩) ∧
      (∀ script later gone, host.decoders = some script :: later →
        job.Spares gone visits script.headers →
        let fewer := unpackArchive path output options observer
          { host with decoders := some (script.without gone) :: later }
        ran.1 = fewer.1.map
            (Tally.passing · (script.headers.length - (script.without gone).headers.length)) ∧
          fewer.2.tree = ran.2.tree ∧
          ∃ acts, host.Acts ran.2 acts ∧
            host.Acts fewer.2 (leaveOut Record.isRequest gone acts)) ∧
      ∀ error, ran.1 ≠ .error (.security error) := by
  intro job ran visits
  have unpacks := unpackArchive_unpacks path output options observer host
  refine ⟨fun visit member passes => ?_, fun script later gone decoders spares => ?_,
    unpacks.secure⟩
  · exact UnpackJob.treat_passedOver (unpacks.grounded visit member) passes
  · exact unpacks.curtails decoders spares

/-- Of three members the first would climb out of the output directory, and the last is a file where
a directory stands. Without them the one between is unpacked all the same. -/
theorem one_between_inert :
    let archive : Path := [0x78]
    let output : Path := [0x6F]
    let header (name : Name) : Header := ⟨some name, none, 1, true, 0o100644⟩
    let item (name : Name) : HeaderItem :=
      { header := some (header name), data := [{ serving := .content [1] }] }
    let script : Script :=
      { headers := [item [0x2E, 0x2E, 0x2F, 0x61], item [0x62], item [0x63]] }
    let host (script : Script) : Host :=
      { decoders := [some script]
        tree := { entries := [(archive, .file [0]),
          (output, .directory [([0x63], .directory [])])] } }
    let ran := unpackArchive archive output {} (fun _ _ _ => {}) (host script)
    let fewer := unpackArchive archive output {} (fun _ _ _ => {})
      (host { script with headers := [item [0x62]] })
    ran.1 = .ok { files := 1, skipped := 2, bytes := 1 } ∧
      fewer.1 = .ok { files := 1, bytes := 1 } ∧ fewer.2.tree = ran.2.tree := by
  intro archive output header item script host ran fewer
  obtain ⟨_, inert, _⟩ := unpackArchive_inert archive output {} (fun _ _ _ => {}) (host script)
  let job := ({} : UnpackOptions).job output fun _ _ _ => {}
  let visits := unpackVisits archive output {} (fun _ _ _ => {}) (host script)
  have passed : ∀ {index : Nat} {tally next : Tally},
      (visits[index]?.map fun visit => ((job.treat visit).value, visit.tally)) =
        some (.ok next, tally) → next.skipped = tally.skipped + 1 →
      ∃ visit, visits[index]? = some visit ∧ job.PassesOver visit := by
    intro index tally next met more
    obtain ⟨visit, there, ends⟩ := Option.map_eq_some_iff.mp met
    obtain ⟨done, own⟩ := Prod.mk.inj ends
    exact ⟨visit, there, next, done, own ▸ more⟩
  have climbing : (visits[0]?.map fun visit => ((job.treat visit).value, visit.tally)) =
      some (.ok { skipped := 1 }, {}) := by
    unfold visits job
    cbv
  have blocked : (visits[2]?.map fun visit => ((job.treat visit).value, visit.tally)) =
      some (.ok { files := 1, skipped := 2, bytes := 1 },
        { files := 1, skipped := 1, bytes := 1 }) := by
    unfold visits job
    cbv
  have spares : job.Spares (fun index => index == 0 || index == 2) visits script.headers := by
    intro index out
    rcases (by simpa using out : index = 0 ∨ index = 2) with rfl | rfl
    · obtain ⟨visit, there, passes⟩ := passed climbing rfl
      exact ⟨visit, _, there, rfl, rfl, passes⟩
    · obtain ⟨visit, there, passes⟩ := passed blocked rfl
      exact ⟨visit, _, there, rfl, rfl, passes⟩
  obtain ⟨_, tree, _⟩ := inert script [] _ rfl spares
  exact ⟨by cbv, by cbv, tree⟩

end ArchiveTraversal
