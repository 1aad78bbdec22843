import ArchiveTraversal.Proofs.Decoder.Data
import ArchiveTraversal.Proofs.Host

/-!
The ways that an unpack, a member and a file can go, said once for all proofs about them. Each way
comes with what has been tried on the file tree and how that turned out.
-/

namespace ArchiveTraversal

def UnpackOptions.job (options : UnpackOptions) (output : Path) (observer : Observer) :
    UnpackJob := ⟨output, options.sizeLimit, observer⟩

namespace UnpackJob

variable (job : UnpackJob) (tally : Tally) (session : Session) (host : Host)

theorem unpackFile_cases (name : String) (destination : Path) :
    (∃ error tree, host.tree.makeDirectories (destination.parent?.getD []) = (.error error, tree) ∧
      job.unpackFile name destination tally session host =
        ⟨.error (.io error), session, { host with tree := tree }⟩) ∨
    ∃ tree, host.tree.makeDirectories (destination.parent?.getD []) = (.ok (), tree) ∧
      ((tree.isDirectory destination = true ∧
          job.unpackFile name destination tally session host =
            ⟨.ok { tally with skipped := tally.skipped + 1 }, session,
              { host with tree := tree }.event (.memberBlocked name)⟩) ∨
        tree.isDirectory destination = false ∧
          ((∃ error, tree.createFile destination = .error error ∧
              job.unpackFile name destination tally session host =
                ⟨.error (.io error), session, { host with tree := tree }⟩) ∨
            ∃ location opened, tree.createFile destination = .ok (location, opened) ∧
              job.unpackFile name destination tally session host =
                job.fillFile name location tally session { host with tree := opened })) := by
  unfold unpackFile Host.makeDirectories
  cases made : host.tree.makeDirectories (destination.parent?.getD []) with
  | mk result tree =>
      cases result with
      | error error => exact .inl ⟨error, tree, rfl, rfl⟩
      | ok _ =>
          refine .inr ⟨tree, rfl, ?_⟩
          cases is : tree.isDirectory destination with
          | true => exact .inl ⟨rfl, by simp [is]⟩
          | false =>
              refine .inr ⟨rfl, ?_⟩
              cases created : tree.createFile destination with
              | error error => exact .inl ⟨error, rfl, by simp [is, created]⟩
              | ok opened => exact .inr ⟨opened.1, opened.2, rfl, by simp [is, created]⟩

theorem unpackMember_cases (info : MemberInfo) :
    (∃ error, Safety.destination info = .error error ∧
      job.unpackMember info tally session host =
        ⟨.ok { tally with skipped := tally.skipped + 1 }, session,
          host.event (.memberSkipped info.path error)⟩) ∨
    ∃ relative, Safety.destination info = .ok relative ∧
      ((∃ error between, host.clearFileAncestors job.output relative = (.error error, between) ∧
          job.unpackMember info tally session host = ⟨.error (.io error), session, between⟩) ∨
        ∃ between, host.clearFileAncestors job.output relative = (.ok (), between) ∧
          ((info.isDirectory = true ∧
              ((∃ error after,
                  between.placeDirectory (job.output.join relative) = (.error error, after) ∧
                  job.unpackMember info tally session host = ⟨.error (.io error), session, after⟩) ∨
                ∃ after, between.placeDirectory (job.output.join relative) = (.ok (), after) ∧
                  job.unpackMember info tally session host =
                    ⟨.ok { tally with directories := tally.directories + 1 }, session, after⟩)) ∨
            info.isDirectory = false ∧
              job.unpackMember info tally session host =
                job.unpackFile info.path (job.output.join relative) tally session between)) := by
  unfold unpackMember
  cases accepted : Safety.destination info with
  | error error => exact .inl ⟨error, rfl, rfl⟩
  | ok relative =>
      refine .inr ⟨relative, rfl, ?_⟩
      dsimp only
      cases cleared : host.clearFileAncestors job.output relative with
      | mk result between =>
          cases result with
          | error error => exact .inl ⟨error, between, rfl, rfl⟩
          | ok _ =>
              refine .inr ⟨between, rfl, ?_⟩
              cases directory : info.isDirectory with
              | false => exact .inr ⟨rfl, rfl⟩
              | true =>
                  refine .inl ⟨rfl, ?_⟩
                  cases placed : between.placeDirectory (job.output.join relative) with
                  | mk result after =>
                      cases result with
                      | error error => exact .inl ⟨error, after, rfl, by simp [placed]⟩
                      | ok _ => exact .inr ⟨after, rfl, by simp [placed]⟩

theorem unpackMember_reaches (info : MemberInfo) :
    (∃ value after, host.Rearranged after ∧
      job.unpackMember info tally session host = ⟨value, session, after⟩) ∨
    info.isDirectory = false ∧ ∃ location between, host.Rearranged between ∧
      job.unpackMember info tally session host =
        job.fillFile info.path location tally session between := by
  rcases job.unpackMember_cases tally session host info with
    ⟨_, _, ends⟩ | ⟨relative, _, rest⟩
  · exact .inl ⟨_, _, host.event_rearranged _, ends⟩
  -- All that is done before the data is asked for is done to the tree.
  have cleared := host.clearFiles_rearranged (job.output.leadingTo relative.names)
  rw [← Host.clearFileAncestors] at cleared
  rcases rest with ⟨_, _, clearing, ends⟩ | ⟨between, clearing, rest⟩
  · rw [clearing] at cleared
    exact .inl ⟨_, _, cleared, ends⟩
  rw [clearing] at cleared
  have placed := cleared.trans (between.placeDirectory_rearranged (job.output.join relative))
  rcases rest with ⟨_, ⟨_, _, placing, ends⟩ | ⟨_, placing, ends⟩⟩ | ⟨regular, ends⟩
  · rw [placing] at placed
    exact .inl ⟨_, _, placed, ends⟩
  · rw [placing] at placed
    exact .inl ⟨_, _, placed, ends⟩
  rw [ends]
  rcases job.unpackFile_cases tally session between info.path (job.output.join relative) with
    ⟨_, made, _, ends⟩ | ⟨made, _, ⟨_, ends⟩ | ⟨_, ⟨_, _, ends⟩ | ⟨location, opened, _, ends⟩⟩⟩
  · exact .inl ⟨_, _, cleared.trans (between.rearranged made), ends⟩
  · exact .inl ⟨_, _, (cleared.trans (between.rearranged made)).trans (Host.event_rearranged ..), ends⟩
  · exact .inl ⟨_, _, cleared.trans (between.rearranged made), ends⟩
  · exact .inr ⟨regular, location, _, cleared.trans (between.rearranged opened), ends⟩

theorem fillFile_setup (name : String) (location : Location) :
    (job.fillFile name location tally session host).session.setup = session.setup := by
  unfold fillFile
  dsimp only
  split <;> exact session.forEachChunk_setup ..

theorem unpackMember_setup (info : MemberInfo) :
    (job.unpackMember info tally session host).session.setup = session.setup := by
  rcases job.unpackMember_reaches tally session host info with
    ⟨_, _, _, ends⟩ | ⟨_, location, between, _, ends⟩
  · rw [ends]
  · rw [ends]
    exact job.fillFile_setup tally session between info.path location

section

variable {job : UnpackJob} {tally final : Tally} {session : Session} {host : Host}

theorem writer_takes {written last : Written} {seen : List Bytes}
    (taken : job.writer.Takes written seen last) :
    last.chunks = seen.reverse ++ written.chunks ∧
      last.total = written.total + seen.flatten.length := by
  induction taken with
  | nil => simp
  | @cons written next last chunk rest accepted _ ih =>
      simp only [writer] at accepted
      split at accepted
      · cases accepted
      · cases accepted
        simp only [ih, List.reverse_cons, List.append_assoc, List.flatten_cons, List.length_append]
        exact ⟨rfl, by omega⟩

theorem writer_content {written : Written} {seen : List Bytes} {total : Nat}
    (taken : job.writer.Takes { total := total } seen written) :
    written.content = seen.flatten ∧ written.total = total + seen.flatten.length := by
  obtain ⟨chunks, counted⟩ := writer_takes taken
  refine ⟨?_, counted⟩
  rw [Written.content, chunks]
  simp

theorem fillFile_onMember {name : String} {location : Location} (onData : session.OnData)
    (ok : (job.fillFile name location tally session host).value = .ok final) :
    (job.fillFile name location tally session host).session.cursor = .onMember := by
  have stays := onData.forEachChunk job.writer { total := tally.bytes } host
  unfold fillFile at ok ⊢
  dsimp only at ok ⊢
  split at ok
  · cases ok
  · cases ok
  · rename_i complete
    exact (stays complete).cursor

theorem unpackMember_onMember {info : MemberInfo} (onMember : session.cursor = .onMember)
    (regular : info.isDirectory = false → session.OnData)
    (ok : (job.unpackMember info tally session host).value = .ok final) :
    (job.unpackMember info tally session host).session.cursor = .onMember := by
  rcases job.unpackMember_reaches tally session host info with
    ⟨_, _, _, ends⟩ | ⟨is, location, between, _, ends⟩
  · rw [ends]
    exact onMember
  · rw [ends] at ok ⊢
    exact fillFile_onMember (regular is) ok

end

end UnpackJob

theorem unpackArchive_cases (path output : Path) (options : UnpackOptions) (observer : Observer)
    (host : Host) :
    (∃ error reader between,
      (Reader.new path options.reader).openSession host = (.refused error reader, between) ∧
      unpackArchive path output options observer host = (.error (.archive error), between)) ∨
    ∃ session between,
      (Reader.new path options.reader).openSession host = (.opened session, between) ∧
      ((∃ error tree, between.tree.makeDirectories output = (.error error, tree) ∧
          unpackArchive path output options observer host =
            (.error (.io error), (session.close { between with tree := tree }).2.2)) ∨
        ∃ tree, between.tree.makeDirectories output = (.ok (), tree) ∧
          let done := (options.job output observer).unpackMembers {} session
            { between with tree := tree }
          unpackArchive path output options observer host =
            (done.value, (done.session.close done.host).2.2)) := by
  unfold unpackArchive Host.makeDirectories
  cases started : (Reader.new path options.reader).openSession host with
  | mk opening between =>
      cases opening with
      | refused error reader => exact .inl ⟨error, reader, between, rfl, rfl⟩
      | opened session =>
          right
          cases making : between.tree.makeDirectories output with
          | mk result tree =>
              refine ⟨session, between, rfl, ?_⟩
              simp only [making]
              cases result with
              | error error => exact .inl ⟨error, tree, rfl, rfl⟩
              | ok _ => exact .inr ⟨tree, rfl, rfl⟩

end ArchiveTraversal
