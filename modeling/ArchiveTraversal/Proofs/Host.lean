import ArchiveTraversal.Proofs.Reader
import ArchiveTraversal.Proofs.Session
import ArchiveTraversal.Unpack

/-!
What operations leave alone on a host. Walking through an archive only adds to the journal and
raises the cancel flag; the tree stays as it is, and so do the decoders still to be handed out.
Opening one hands a decoder out, and leaves the tree alone all the same. Making room in the tree is
the other way round: it changes the tree and may log that, and no more.
-/

namespace ArchiveTraversal

/-- The later host has the tree and the decoders of the earlier one, and its journal goes on from
the earlier one's. -/
structure Host.Extends (before after : Host) : Prop where
  tree : after.tree = before.tree
  decoders : after.decoders = before.decoders
  allocated : after.allocated = before.allocated
  cancelled : before.cancelled = true → after.cancelled = true
  journal : ∃ more, after.journal.toList = before.journal.toList ++ more

namespace Host

theorem Extends.refl (host : Host) : host.Extends host :=
  ⟨rfl, rfl, rfl, fun raised => raised, [], by simp⟩

theorem Extends.trans {before between after : Host} (first : before.Extends between)
    (second : between.Extends after) : before.Extends after := by
  obtain ⟨more, grown⟩ := first.journal
  obtain ⟨further, grownAgain⟩ := second.journal
  exact ⟨second.tree.trans first.tree, second.decoders.trans first.decoders,
    second.allocated.trans first.allocated, fun raised => second.cancelled (first.cancelled raised),
    more ++ further, by rw [grownAgain, grown, List.append_assoc]⟩

theorem record_extends (host : Host) (entry : Record) : host.Extends (host.record entry) :=
  ⟨rfl, rfl, rfl, fun raised => raised, [entry], by simp [record]⟩

theorem call_extends (host : Host) (handle : Nat) (call : Decoder.Call) :
    host.Extends (host.call handle call) := host.record_extends _

theorem event_extends (host : Host) (event : Event) : host.Extends (host.event event) :=
  host.record_extends _

theorem raiseIf_extends (host : Host) (cancels : Bool) : host.Extends (host.raiseIf cancels) := by
  unfold raiseIf
  split
  · exact ⟨rfl, rfl, rfl, fun _ => rfl, [.cancelRaised], by simp [record]⟩
  · exact .refl host

end Host

structure Host.Rearranged (before after : Host) : Prop where
  decoders : after.decoders = before.decoders
  allocated : after.allocated = before.allocated
  cancelled : after.cancelled = before.cancelled
  journal : ∃ events : List Event,
    after.journal.toList = before.journal.toList ++ events.map .event

namespace Host

theorem rearranged (host : Host) (tree : FileTree) : host.Rearranged { host with tree := tree } :=
  ⟨rfl, rfl, rfl, [], by simp⟩

theorem event_rearranged (host : Host) (event : Event) : host.Rearranged (host.event event) :=
  ⟨rfl, rfl, rfl, [event], by simp [Host.event, record]⟩

theorem Rearranged.trans {before between after : Host} (first : before.Rearranged between)
    (second : between.Rearranged after) : before.Rearranged after := by
  obtain ⟨events, logged⟩ := first.journal
  obtain ⟨further, loggedAgain⟩ := second.journal
  constructor
  · exact second.decoders.trans first.decoders
  · exact second.allocated.trans first.allocated
  · exact second.cancelled.trans first.cancelled
  · exact ⟨events ++ further, by rw [loggedAgain, logged, List.map_append, List.append_assoc]⟩

theorem clearFiles_rearranged (host : Host) (paths : List Path) :
    host.Rearranged (host.clearFiles paths).2 := by
  induction paths generalizing host with
  | nil => exact host.rearranged host.tree
  | cons path deeper ih =>
      have told := host.event_rearranged (.fileReplaced path)
      simp only [clearFiles]
      split
      · split
        · exact told
        · rename_i tree _
          exact (told.trans (rearranged _ tree)).trans (ih _)
      · exact ih host

theorem placeDirectory_rearranged (host : Host) (path : Path) :
    host.Rearranged (host.placeDirectory path).2 := by
  unfold placeDirectory
  split
  · split
    · exact host.rearranged host.tree
    · exact host.rearranged _
  · exact host.rearranged _

end Host

namespace Session

theorem call_extends (session : Session) (host : Host) (call : Decoder.Call) :
    host.Extends (session.call host call) := host.call_extends _ _

theorem asked_extends (session : Session) (host : Host) : host.Extends (session.asked host) :=
  (session.call_extends host .nextHeader).trans (Host.raiseIf_extends ..)

theorem fetched_extends (session : Session) (host : Host) : host.Extends (session.fetched host) :=
  (session.call_extends host (.readData session.setup.options.chunkSize)).trans
    (Host.raiseIf_extends ..)

theorem advance_extends (session : Session) (host : Host) :
    host.Extends (session.advance host).host := by
  have asked := session.asked_extends host
  have advances := session.advance_advances host
  generalize session.advance host = outcome at *
  cases advances with
  | exhausted => exact .refl host
  | failed => exact .refl host
  | member => exact asked.trans (Host.event_extends ..)
  | ended => exact asked.trans (Host.event_extends ..)
  | broken => exact asked.trans (Host.event_extends ..)

theorem readChunk_extends (session : Session) (host : Host) :
    host.Extends (session.readChunk host).host := by
  have fetched := session.fetched_extends host
  have reads := session.readChunk_reads host
  generalize session.readChunk host = outcome at *
  cases reads with
  | start => exact .refl host
  | exhausted => exact .refl host
  | failed => exact .refl host
  | directory => exact .refl host
  | chunk => exact fetched.trans (Host.event_extends ..)
  | broken => exact fetched.trans (Host.event_extends ..)

theorem skipEntry_extends (session : Session) (host : Host) :
    host.Extends (session.skipEntry host).host := by
  have skips := session.skipEntry_skips host
  generalize session.skipEntry host = outcome at *
  cases skips with
  | idle => exact .refl host
  | failed => exact .refl host
  | skipped => exact session.call_extends host _
  | broken => exact session.call_extends host _

theorem forEachChunk_extends {Gathered Cause : Type} (visitor : Visitor Gathered Cause)
    (gathered : Gathered) (session : Session) (host : Host) :
    host.Extends (session.forEachChunk visitor gathered host).host := by
  fun_induction forEachChunk visitor gathered session host with
  | case1 => exact .refl _
  | case2 => exact readChunk_extends ..
  | case3 => exact readChunk_extends ..
  | case4 => exact readChunk_extends ..
  | case5 _ _ _ _ _ _ _ _ _ _ ih => exact (readChunk_extends ..).trans ih

theorem close_extends (session : Session) (host : Host) :
    host.Extends (session.close host).2.2 :=
  (session.call_extends host .free).trans (Host.event_extends ..)

end Session

namespace Reader

theorem acquire_tree (setup : Setup) (host : Host) :
    (acquire setup host).2.tree = host.tree := by
  have acquires := acquire_acquires setup host
  generalize acquire setup host = outcome at *
  cases acquires with
  | obstructed => rfl
  | unavailable => exact Host.callAll_tree ..
  | refused => exact Host.callAll_tree ..
  | ready => exact Host.callAll_tree ..

theorem releaseStale_tree (reader : Reader) (host : Host) :
    (reader.releaseStale host).2.2.tree = host.tree := by
  cases reader with
  | closed setup buffer => rfl
  | abandoned session => exact (session.close_extends _).tree

theorem openSession_tree (reader : Reader) (host : Host) :
    (reader.openSession host).2.tree = host.tree := by
  have released := releaseStale_tree reader host
  have acquired := acquire_tree (reader.releaseStale host).1 (reader.releaseStale host).2.2
  unfold openSession
  dsimp only
  split
  · rename_i refused
    rw [refused] at acquired
    exact acquired.trans released
  · rename_i opened
    rw [opened] at acquired
    exact acquired.trans released

theorem acquire_cancelled (setup : Setup) (host : Host) :
    (acquire setup host).2.cancelled = host.cancelled := by
  have acquires := acquire_acquires setup host
  generalize acquire setup host = outcome at *
  cases acquires with
  | obstructed => rfl
  | unavailable => exact Host.callAll_cancelled ..
  | refused => exact Host.callAll_cancelled ..
  | ready => exact Host.callAll_cancelled ..

theorem openSession_cancelled (path : Path) (options : ReaderOptions) (host : Host) :
    ((new path options).openSession host).2.cancelled = host.cancelled := by
  have acquired := acquire_cancelled ⟨path, options.normalized⟩ host
  unfold openSession
  simp only [releaseStale, new]
  split
  · rename_i refused
    rw [refused] at acquired
    exact acquired
  · rename_i opened
    rw [opened] at acquired
    exact acquired

end Reader

end ArchiveTraversal
