import ArchiveTraversal.Proofs.Unpack.Preparation

/-!
The tree of an unpack, told from its members alone. Each of them is prepared, and the chunks of its
data that are written are then what its file holds. So the members of a run, with the chunks of
each, give all that it writes and the tree that it leaves.
-/

namespace ArchiveTraversal

/-- A member with the chunks of its data that are written. -/
structure Delivery where
  info : MemberInfo
  chunks : List Bytes

namespace FileTree

variable {tree : FileTree} {output : Path}

/-- What is written of a delivery, and the tree with it. -/
def receive (tree : FileTree) (output : Path) (delivery : Delivery) : List Write × FileTree :=
  match (Host.alone tree).prepare output delivery.info with
  | (.file location, ready) =>
      (delivery.chunks.map (Write.mk location),
        ready.tree.put location (.file delivery.chunks.flatten))
  | (_, after) => ([], after.tree)

def receiveAll (tree : FileTree) (output : Path) : List Delivery → List Write × FileTree
  | [] => ([], tree)
  | delivery :: later =>
      let received := tree.receive output delivery
      let rest := received.2.receiveAll output later
      (received.1 ++ rest.1, rest.2)

theorem receiveAll_singleton (delivery : Delivery) :
    tree.receiveAll output [delivery] = tree.receive output delivery := by
  simp only [receiveAll, List.append_nil]

theorem receiveAll_concat {made : FileTree} {earlier : List Delivery} {seen : List Write}
    (receives : made.receiveAll output earlier = (seen, tree)) (delivery : Delivery) :
    made.receiveAll output (earlier ++ [delivery]) =
      (seen ++ (tree.receive output delivery).1, (tree.receive output delivery).2) := by
  induction earlier generalizing made seen with
  | nil =>
      cases receives
      rw [List.nil_append, receiveAll_singleton, List.nil_append]
  | cons first others ih =>
      cases receives
      simp only [List.cons_append, receiveAll, ih rfl, List.append_assoc]

theorem vacant_of_prepare {host ready : Host} {info : MemberInfo} {location : Location}
    (prepared : host.prepare output info = (.file location, ready)) :
    ready.tree.Vacant location := by
  have prepares := host.prepare_prepares output info
  rw [prepared] at prepares
  generalize same : (Preparation.file location, ready) = outcome at prepares
  cases prepares with
  | placed =>
      split at same
      · cases same
      · cases same
  | file _ _ _ creating =>
      cases same
      obtain ⟨_, _, _, vacant, rfl⟩ := createFile_ok creating
      exact vacant.put_file []
  | _ => cases same

theorem receive_of_file {info : MemberInfo} {location : Location} {ready : Host}
    (prepared : (Host.alone tree).prepare output info = (.file location, ready))
    (chunks : List Bytes) :
    tree.receive output ⟨info, chunks⟩ =
      (chunks.map (Write.mk location), ready.tree.put location (.file chunks.flatten)) := by
  simp only [receive, prepared]

/-- The deliveries leave this tree, and what has been seen being written is all, or all but a last
chunk, which is what the last of their files then ends with. -/
inductive Appends (made : FileTree) (output : Path) (after : FileTree) :
    List Delivery → List Write → List Write → Prop
  | nothing {deliveries : List Delivery} {seen : List Write}
      (receives : made.receiveAll output deliveries = (seen, after)) :
      Appends made output after deliveries seen []
  | chunk {earlier : List Delivery} {info : MemberInfo} {kept : List Bytes} {write : Write}
      {seen : List Write} {before : FileTree}
      (receives : made.receiveAll output (earlier ++ [⟨info, kept⟩]) = (seen, before))
      (holds : before.at? write.location = some (.file kept.flatten))
      (grows : ∀ other, after.at? other =
        if other = write.location then some (.file (kept.flatten ++ write.chunk))
        else before.at? other) :
      Appends made output after (earlier ++ [⟨info, kept ++ [write.chunk]⟩]) seen [write]

theorem Appends.of_file {info : MemberInfo} {location : Location} {ready : Host}
    {earlier : List Delivery} {seen : List Write} {made : FileTree}
    (receives : made.receiveAll output earlier = (seen, tree))
    (prepared : (Host.alone tree).prepare output info = (.file location, ready))
    (kept : List Bytes) (chunk : Bytes) :
    Appends made output (tree.receive output ⟨info, kept ++ [chunk]⟩).2
      (earlier ++ [⟨info, kept ++ [chunk]⟩]) (seen ++ kept.map (Write.mk location))
      [⟨location, chunk⟩] := by
  have view := (vacant_of_prepare prepared).at?_put_file
  refine @Appends.chunk _ _ _ _ _ _ ⟨location, chunk⟩ _
    (ready.tree.put location (.file kept.flatten)) ?_ ?_ ?_
  · rw [receiveAll_concat receives, receive_of_file prepared]
  · rw [view, if_pos rfl]
  · intro other
    rw [receive_of_file prepared, view, view, List.flatten_append, List.flatten_singleton]
    split <;> rfl

end FileTree

namespace UnpackJob

variable {job : UnpackJob} {tally : Tally} {session : Session} {host : Host}

def writes (job : UnpackJob) (visits : List Visit) : List Write := visits.flatMap job.writesOf

def delivery (job : UnpackJob) (visit : Visit) : Delivery :=
  ⟨visit.info, (job.writesOf visit).map Write.chunk⟩

theorem delivery_of_target {visit : Visit} {location : Location} {ready : Host}
    (found : visit.host.target? job.output visit.info = some (location, ready)) :
    ∃ chunks other, job.writesOf visit = chunks.map (Write.mk location) ∧
      job.delivery visit = ⟨visit.info, chunks⟩ ∧
      (Host.alone visit.host.tree).prepare job.output visit.info = (.file location, other) ∧
      other.tree = ready.tree := by
  have prepared := Host.prepare_of_target found
  rw [visit.host.prepare_eq, Prod.mk.injEq] at prepared
  have same : (visit.host.follow _).tree = ready.tree := congrArg Host.tree prepared.2
  have chunks (all : List Bytes) : (all.map (Write.mk location)).map Write.chunk = all := by
    rw [List.map_map]
    exact List.map_id _
  refine ⟨_, _, writesOf_of_target job found, ?_, Prod.ext prepared.1 rfl, same⟩
  rw [delivery, writesOf_of_target job found, chunks]

/-- A visit leaves the tree to which its member has been delivered. -/
theorem treat_receives (job : UnpackJob) (visit : Visit) :
    visit.host.tree.receive job.output (job.delivery visit) =
      (job.writesOf visit, (job.treat visit).host.tree) := by
  cases found : visit.host.target? job.output visit.info with
  | some target =>
      obtain ⟨location, ready⟩ := target
      obtain ⟨chunks, other, writes, delivered, prepared, same⟩ := delivery_of_target found
      rw [delivered, FileTree.receive_of_file prepared, treat_content found, writes, same,
        List.flatMap_map, List.flatMap_id']
  | none =>
      -- Without a file to write to, to prepare the member is all that is done to the tree.
      have target := visit.host.target?_prepare job.output visit.info
      rw [found, visit.host.prepare_eq] at target
      rw [writesOf_of_nowhere job found, treat, unpackMember_prepare, visit.host.prepare_eq,
        FileTree.receive, delivery]
      generalize (Host.alone visit.host.tree).prepare job.output visit.info = prepared at *
      obtain ⟨preparation, after⟩ := prepared
      cases preparation with
      | file location => cases target
      | _ => rfl

theorem meets_receives (job : UnpackJob) (tally : Tally) (session : Session) (host : Host)
    (header : Header) :
    host.tree.receive job.output (job.delivery (meets tally session host header)) =
      (job.writesOf (meets tally session host header),
        (job.treat (meets tally session host header)).host.tree) := by
  have received := job.treat_receives (meets tally session host header)
  rwa [show (meets tally session host header).host.tree = host.tree from
    (session.advance_extends host).tree] at received

theorem Goes.receives_upTo {visits previous later : List Visit} {visit : Visit}
    {final : Outcome (Except UnpackError Tally)} (goes : job.Goes tally session host visits final)
    (split : visits = previous ++ visit :: later) :
    host.tree.receiveAll job.output (previous.map job.delivery) =
      (job.writes previous, visit.host.tree) := by
  induction goes generalizing previous with
  | cancelled => simp at split
  | unreadable => simp at split
  | ended => simp at split
  | @stopped tally session host header _ _ moved broken =>
      cases previous with
      | nil =>
          cases split
          exact congrArg _ (session.advance_extends host).tree.symm
      | cons first rest => simp at split
  | @member tally next session host header others final _ moved done goes ih =>
      -- To ask for a header leaves the tree alone, so the first member finds it as it was.
      cases previous with
      | nil =>
          cases split
          exact congrArg _ (session.advance_extends host).tree.symm
      | cons first rest =>
          cases split
          rw [List.map_cons, FileTree.receiveAll, job.meets_receives, ih rfl]
          rfl

/-- A run leaves the tree to which its members have been delivered, each with the chunks of its data
that are written. -/
theorem Goes.receives {visits : List Visit} {final : Outcome (Except UnpackError Tally)}
    (goes : job.Goes tally session host visits final) :
    host.tree.receiveAll job.output (visits.map job.delivery) =
      (job.writes visits, final.host.tree) := by
  induction goes with
  | cancelled => rfl
  | @unreadable _ session host => exact congrArg _ (session.advance_extends host).tree.symm
  | @ended _ session host => exact congrArg _ (session.advance_extends host).tree.symm
  | stopped =>
      rw [List.map_singleton, FileTree.receiveAll_singleton, job.meets_receives, writes,
        List.flatMap_singleton]
  | member _ _ _ _ ih =>
      rw [List.map_cons, FileTree.receiveAll, job.meets_receives, ih]
      rfl

theorem Goes.holds {visits previous : List Visit} {visit : Visit} {location : Location}
    {ready : Host} {final : Outcome (Except UnpackError Tally)}
    (goes : job.Goes tally session host visits final) (split : visits = previous ++ [visit])
    (found : visit.host.target? job.output visit.info = some (location, ready)) :
    final.host.tree.at? location = some (.file (job.delivery visit).chunks.flatten) := by
  obtain ⟨chunks, other, writes, delivered, prepared, _⟩ := delivery_of_target found
  have after := goes.receives
  rw [split, List.map_append, List.map_singleton,
    FileTree.receiveAll_concat (goes.receives_upTo split), delivered,
    FileTree.receive_of_file prepared, Prod.mk.injEq] at after
  rw [← after.2, (FileTree.vacant_of_prepare prepared).at?_put_file, if_pos rfl, delivered]

/-- The last chunk that a run writes is what its last file ends with. -/
theorem Goes.appends {visits previous : List Visit} {visit : Visit} {kept : List Write}
    {write : Write} {final : Outcome (Except UnpackError Tally)}
    (goes : job.Goes tally session host visits final) (split : visits = previous ++ [visit])
    (wrote : job.writesOf visit = kept ++ [write]) :
    host.tree.Appends job.output final.host.tree (visits.map job.delivery)
      (job.writes previous ++ kept) [write] := by
  cases found : visit.host.target? job.output visit.info with
  | none =>
      rw [writesOf_of_nowhere job found] at wrote
      simp at wrote
  | some target =>
      obtain ⟨location, ready⟩ := target
      obtain ⟨chunks, other, writes, delivered, prepared, same⟩ := delivery_of_target found
      obtain ⟨early, last, rfl, rfl, ends⟩ := List.map_eq_append_iff.mp (writes.symm.trans wrote)
      obtain ⟨chunk, rfl, rfl⟩ := List.map_eq_singleton_iff.mp ends
      have before := goes.receives_upTo split
      have appends := FileTree.Appends.of_file before prepared early chunk
      have after := goes.receives
      rw [split, List.map_append, List.map_singleton] at after ⊢
      rw [FileTree.receiveAll_concat before, delivered, Prod.mk.injEq] at after
      rw [delivered, ← after.2]
      exact appends

end UnpackJob

section

variable (path output : Path) (options : UnpackOptions) (observer : Observer) (host : Host)

def unpackWrites : List Write :=
  (options.job output observer).writes (unpackVisits path output options observer host)

/-- The members that an unpack comes to, with what it writes of each. -/
def unpackDeliveries : List Delivery :=
  (unpackVisits path output options observer host).map (options.job output observer).delivery

variable {path output options observer host} {visits : List Visit}
  {result : Except UnpackError Tally × Host}

theorem Unpacks.writes (unpacks : Unpacks path output options observer host visits result) :
    unpackWrites path output options observer host =
      (options.job output observer).writes visits := by
  rw [unpackWrites, unpacks.eq.1]

theorem Unpacks.deliveries (unpacks : Unpacks path output options observer host visits result) :
    unpackDeliveries path output options observer host =
      visits.map (options.job output observer).delivery := by
  rw [unpackDeliveries, unpacks.eq.1]

theorem Unpacks.receives (unpacks : Unpacks path output options observer host visits result) :
    unpackDeliveries path output options observer host = [] ∧ result.2.tree = host.tree ∨
      (host.tree.makeDirectories output).2.receiveAll output
          (unpackDeliveries path output options observer host) =
        (unpackWrites path output options observer host, result.2.tree) := by
  rw [unpacks.deliveries, unpacks.writes]
  have kept := (Reader.new path options.reader).openSession_tree host
  cases unpacks with
  | refused refused =>
      rw [refused] at kept
      exact .inl ⟨rfl, kept⟩
  | @obstructed session between _ made opened making =>
      rw [opened] at kept
      rw [← show between.tree = host.tree from kept, making, (session.close_extends _).tree]
      exact .inr rfl
  | @ran session between made visits final opened making goes =>
      rw [opened] at kept
      rw [← show between.tree = host.tree from kept, making,
        (final.session.close_extends final.host).tree]
      exact .inr goes.receives

end

end ArchiveTraversal
