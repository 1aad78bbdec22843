import ArchiveTraversal.Proofs.Unpack.Transfers
import ArchiveTraversal.Proofs.Unpack.Pouring

/-!
Two unpacks of a plain archive that read it in chunks of different sizes. They are followed side by
side, member by member. Each member is prepared alike in both, its data is poured alike into its
file, and the same is reported of it; until both exceed the limit at one member, where they may have
come to different totals.
-/

namespace ArchiveTraversal

open Decoder

namespace Host

/-- Two hosts that agree, and on which the same has been reported. -/
structure Concurs (one other : Host) : Prop extends Agrees one other where
  reports : other.reports = one.reports

variable {one other after otherAfter : Host}

theorem Concurs.of_murmurs (concurs : one.Concurs other) (agrees : after.Agrees otherAfter)
    (murmurs : one.Murmurs after) (murmursToo : other.Murmurs otherAfter) :
    after.Concurs otherAfter :=
  ⟨agrees, by rw [murmursToo.reports, murmurs.reports, concurs.reports]⟩

theorem Concurs.event (concurs : one.Concurs other) (event : Event) :
    (one.event event).Concurs (other.event event) :=
  concurs.of_murmurs ⟨concurs.tree, concurs.flag⟩ (event_murmurs ..) (event_murmurs ..)

theorem Concurs.raiseIf (concurs : one.Concurs other) (cancels : Bool) :
    (one.raiseIf cancels).Concurs (other.raiseIf cancels) :=
  concurs.of_murmurs (concurs.toAgrees.raiseIf cancels).agrees (raiseIf_murmurs ..)
    (raiseIf_murmurs ..)

theorem Concurs.progress (concurs : one.Concurs other) (name : String) (total : Nat) :
    (one.record (.progress name total)).Concurs (other.record (.progress name total)) := by
  refine ⟨⟨concurs.tree, concurs.flag⟩, ?_⟩
  have same : other.journal.toList.filterMap Record.report? =
    one.journal.toList.filterMap Record.report? := concurs.reports
  simp only [Host.reports, record, Array.toList_push, List.filterMap_append, same]

theorem Concurs.prepare (concurs : one.Concurs other) (output : Path) (info : MemberInfo) :
    (other.prepare output info).1 = (one.prepare output info).1 ∧
      (one.prepare output info).2.Concurs (other.prepare output info).2 := by
  have murmurs := (one.prepare_rearranged output info).murmurs
  have murmursToo := (other.prepare_rearranged output info).murmurs
  rw [one.prepare_eq] at murmurs ⊢
  rw [other.prepare_eq, concurs.tree] at murmursToo ⊢
  exact ⟨rfl, concurs.of_murmurs ⟨rfl, concurs.flag⟩ murmurs murmursToo⟩

end Host

open Host

/-- Two runs end alike, or both have exceeded the limit. In that case it may have been at different
totals, and the file that they were at may hold more in one than in the other. -/
inductive EndsAlike (limit : Option Nat) :
    Except UnpackError Tally × Host → Except UnpackError Tally × Host → Prop
  | same {value : Except UnpackError Tally} {one other : Host} (concurs : one.Concurs other) :
      EndsAlike limit (value, one) (value, other)
  | exceeded {bound current otherCurrent : Nat} {one other : Host} {tree : FileTree}
      {location : Location} {content otherContent : Bytes} (limited : limit = some bound)
      (reports : other.reports = one.reports) (held : one.tree = tree.put location (.file content))
      (heldToo : other.tree = tree.put location (.file otherContent)) :
      EndsAlike limit (.error (.sizeLimitExceeded current bound), one)
        (.error (.sizeLimitExceeded otherCurrent bound), other)

section

variable {limit : Option Nat} {one other : Except UnpackError Tally × Host}

theorem EndsAlike.ok (alike : EndsAlike limit one other) {tally : Tally} (ok : one.1 = .ok tally) :
    other.1 = .ok tally ∧ one.2.Concurs other.2 := by
  cases alike with
  | same concurs => exact ⟨ok, concurs⟩
  | exceeded => cases ok

theorem EndsAlike.error (alike : EndsAlike limit one other) {error : UnpackError}
    (failed : one.1 = .error error) : ∃ cause, other.1 = .error cause := by
  cases alike with
  | same => exact ⟨error, failed⟩
  | exceeded => exact ⟨_, rfl⟩

end

def Outcome.result {Value : Type} (outcome : Outcome Value) : Value × Host :=
  (outcome.value, outcome.host)

namespace UnpackJob

variable {job : UnpackJob} {tally : Tally} {session other : Session} {host otherHost : Host}

/-- Two sessions read the same plain data, though it may be in chunks of different sizes. -/
structure Recuts (one other : Session) : Prop where
  kindred : one.Kindred other
  positive : 0 < one.setup.options.chunkSize
  positiveToo : 0 < other.setup.options.chunkSize
  plain : ∀ item ∈ one.handle.data, item.Plain

theorem fillFile_alike (job : UnpackJob) (name : String) (location : Location) (tally : Tally)
    (recuts : Recuts session other) (onData : session.OnData) (concurs : host.Concurs otherHost) :
    EndsAlike job.sizeLimit (job.fillFile name location tally session host).result
      (job.fillFile name location tally other otherHost).result := by
  have pours := job.walk_pours { total := tally.bytes } onData recuts.positive recuts.plain host
  have poursToo := job.walk_pours { total := tally.bytes } (recuts.kindred.onData.mpr onData)
    recuts.positiveToo (by rw [recuts.kindred.data]; exact recuts.plain) otherHost
  rw [recuts.kindred.path, recuts.kindred.data, concurs.flag] at poursToo
  have tree := (session.forEachChunk_extends job.writer { total := tally.bytes } host).tree
  have treeToo := (other.forEachChunk_extends job.writer { total := tally.bytes } otherHost).tree
  have murmurs := session.forEachChunk_murmurs job.writer { total := tally.bytes } host
  have murmursToo := other.forEachChunk_murmurs job.writer { total := tally.bytes } otherHost
  have total := job.walk_total tally session host
  have totalToo := job.walk_total tally other otherHost
  rw [walk] at total totalToo
  unfold fillFile Outcome.result
  dsimp only at pours poursToo
  generalize session.forEachChunk job.writer { total := tally.bytes } host = walked at *
  generalize other.forEachChunk job.writer { total := tally.bytes } otherHost = walkedToo at *
  -- The same data is poured on both sides, so both exceed the limit or neither does.
  cases poured : pour session.path job.sizeLimit host.cancelled tally.bytes session.handle.data with
  | none =>
      rw [poured] at pours poursToo
      obtain ⟨bound, current, limited, ends⟩ := pours
      obtain ⟨_, otherCurrent, limitedToo, endsToo⟩ := poursToo
      cases limited.symm.trans limitedToo
      simp only [ends, endsToo]
      have same : walkedToo.host.tree = walked.host.tree := by rw [tree, treeToo, concurs.tree]
      refine .exceeded limited ?_ rfl (congrArg (fun tree : FileTree => tree.put location _) same)
      exact (murmursToo.reports.trans concurs.reports).trans murmurs.reports.symm
  | some poured' =>
      rw [poured] at pours poursToo
      obtain ⟨ends, content, flag⟩ := pours
      obtain ⟨endsToo, contentToo, flagToo⟩ := poursToo
      have contents := contentToo.trans content.symm
      have totals : walkedToo.value.2.total = walked.value.2.total := by
        rw [total, totalToo, contents]
      have walkedOn : walked.host.Concurs walkedToo.host :=
        concurs.of_murmurs ⟨by rw [tree, treeToo, concurs.tree], flagToo.trans flag.symm⟩ murmurs
          murmursToo
      have filled : (walked.host.fill location walked.value.2.content).Concurs
          (walkedToo.host.fill location walkedToo.value.2.content) := by
        refine ⟨⟨?_, walkedOn.flag⟩, walkedOn.reports⟩
        simp only [fill, walkedOn.tree, contents]
      simp only [ends, endsToo, totals]
      cases poured'.walk with
      | unreadable error => exact .same filled
      | stopped error => exact .same filled
      | complete => exact .same (((filled.event _).progress _ _).raiseIf _)

theorem treat_alike (job : UnpackJob) (visit otherVisit : Visit)
    (info : otherVisit.info = visit.info) (tally : otherVisit.tally = visit.tally)
    (recuts : Recuts visit.session otherVisit.session)
    (onData : visit.info.isDirectory = false → visit.session.OnData)
    (concurs : visit.host.Concurs otherVisit.host) :
    EndsAlike job.sizeLimit (job.treat visit).result (job.treat otherVisit).result := by
  obtain ⟨same, prepared⟩ := concurs.prepare job.output visit.info
  have regular : ∀ location ready,
      visit.host.prepare job.output visit.info = (.file location, ready) →
        visit.info.isDirectory = false :=
    fun location ready file => (treat_of_target job (target?_of_file file)).1
  rw [treat, treat, unpackMember_prepare, unpackMember_prepare, info, tally]
  generalize visit.host.prepare job.output visit.info = preparing at *
  generalize otherVisit.host.prepare job.output visit.info = preparingToo at *
  obtain ⟨preparation, ready⟩ := preparing
  obtain ⟨_, readyToo⟩ := preparingToo
  cases same
  cases preparation with
  | refused => exact .same prepared
  | obstructed => exact .same prepared
  | directory => exact .same prepared
  | blocked => exact .same prepared
  | file location =>
      exact job.fillFile_alike visit.info.path location visit.tally recuts
        (onData (regular location ready rfl)) prepared

structure Twins (one other : Session) : Prop where
  path : other.path = one.path
  number : other.handle.number = one.handle.number
  going : one.Going
  goingToo : other.Going
  headers : other.handle.headers = one.handle.headers
  positive : 0 < one.setup.options.chunkSize
  positiveToo : 0 < other.setup.options.chunkSize
  plain : ∀ item ∈ one.handle.headers, ∀ piece ∈ item.data, piece.Plain

theorem Twins.abreast (twins : Twins session other) : session.Abreast other :=
  ⟨twins.path, twins.number, twins.going, twins.goingToo, congrArg List.head? twins.headers⟩

theorem Twins.advance (twins : Twins session other) (concurs : host.Concurs otherHost) :
    (other.advance otherHost).value = (session.advance host).value ∧
      (session.advance host).host.Concurs (other.advance otherHost).host := by
  obtain ⟨value, _, inStep⟩ := twins.abreast.advance concurs.toAgrees
  refine ⟨value, inStep.agrees, ?_⟩
  rw [(twins.goingToo.advance_journal otherHost).1, (twins.going.advance_journal host).1,
    concurs.reports]

theorem Twins.recuts (twins : Twins session other) (concurs : host.Concurs otherHost)
    {header : Header} (moved : (session.advance host).value = .ok (some header)) :
    Recuts (session.advance host).session (other.advance otherHost).session := by
  obtain ⟨item, movedTo⟩ := Session.movedTo_of_advance moved
  constructor
  · exact (twins.abreast.advance concurs.toAgrees).2.1 header moved
  · rw [Session.advance_setup]
    exact twins.positive
  · rw [Session.advance_setup]
    exact twins.positiveToo
  · rw [movedTo.data]
    exact twins.plain item (by simp [movedTo.left])

theorem Twins.treat (twins : Twins session other) (concurs : host.Concurs otherHost)
    {header : Header} {tally next nextToo : Tally}
    (moved : (session.advance host).value = .ok (some header))
    (done : (job.treat (meets tally session host header)).value = .ok next)
    (doneToo : (job.treat (meets tally other otherHost header)).value = .ok nextToo) :
    Twins (job.treat (meets tally session host header)).session
      (job.treat (meets tally other otherHost header)).session := by
  have movedOther := (twins.advance concurs).1.trans moved
  obtain ⟨item, movedTo⟩ := Session.movedTo_of_advance moved
  obtain ⟨_, movedToo⟩ := Session.movedTo_of_advance movedOther
  have setup := job.meets_setup tally session host header
  have setupToo := job.meets_setup tally other otherHost header
  have same := twins.headers
  rw [movedTo.left, movedToo.left] at same
  constructor
  · rw [Session.path, Session.path, setup, setupToo]
    exact twins.path
  · rw [meets_number, meets_number]
    exact twins.number
  · exact meets_going moved done
  · exact meets_going movedOther doneToo
  · rw [meets_headers, meets_headers]
    exact (List.cons.inj same).2
  · rw [setup]
    exact twins.positive
  · rw [setupToo]
    exact twins.positiveToo
  · rw [meets_headers]
    intro other member
    exact twins.plain other (by rw [movedTo.left]; exact List.mem_cons_of_mem _ member)

/-- A run on a plain archive goes as one that reads it in chunks of another size. -/
theorem Goes.recut {visits : List Visit} {final : Outcome (Except UnpackError Tally)}
    (goes : job.Goes tally session host visits final) (twins : Twins session other)
    (concurs : host.Concurs otherHost) :
    ∃ visitsToo last, job.Goes tally other otherHost visitsToo last ∧
      visitsToo.map Visit.info = visits.map Visit.info ∧
      EndsAlike job.sizeLimit final.result last.result := by
  induction goes generalizing other otherHost with
  | cancelled raised =>
      exact ⟨[], _, .cancelled (concurs.flag.trans raised), rfl, .same concurs⟩
  | unreadable lowered failed =>
      obtain ⟨value, advanced⟩ := twins.advance concurs
      exact ⟨[], _, .unreadable (concurs.flag.trans lowered) (value.trans failed), rfl,
        .same advanced⟩
  | ended lowered ended =>
      obtain ⟨value, advanced⟩ := twins.advance concurs
      exact ⟨[], _, .ended (concurs.flag.trans lowered) (value.trans ended), rfl, .same advanced⟩
  | @stopped tally session host header error lowered moved broken =>
      obtain ⟨value, advanced⟩ := twins.advance concurs
      obtain ⟨item, movedTo⟩ := Session.movedTo_of_advance moved
      have treated := job.treat_alike (meets tally session host header)
        (meets tally other otherHost header) rfl rfl (twins.recuts concurs moved) movedTo.onData
        advanced
      obtain ⟨cause, failed⟩ := treated.error broken
      have brokenToo : (job.treat (meets tally other otherHost header)).value = .error cause := failed
      refine ⟨_, _, .stopped (concurs.flag.trans lowered) (value.trans moved) brokenToo, rfl, ?_⟩
      simpa only [Outcome.result, broken, brokenToo] using treated
  | @member tally next session host header later final lowered moved done goes ih =>
      obtain ⟨value, advanced⟩ := twins.advance concurs
      obtain ⟨item, movedTo⟩ := Session.movedTo_of_advance moved
      have treated := job.treat_alike (meets tally session host header)
        (meets tally other otherHost header) rfl rfl (twins.recuts concurs moved) movedTo.onData
        advanced
      obtain ⟨doneToo, concursAfter⟩ := treated.ok done
      obtain ⟨visitsToo, last, goesToo, infos, alike⟩ :=
        ih (twins.treat concurs moved done doneToo) concursAfter
      exact ⟨_, last, .member (concurs.flag.trans lowered) (value.trans moved) doneToo goesToo,
        congrArg (header.info :: ·) infos, alike⟩

end UnpackJob

end ArchiveTraversal
