import ArchiveTraversal.Proofs.Unpack.Visits

/-!
What is settled about a member before its data is looked at: that it is passed over, that it becomes
a directory, or that there is a file for its data to go to. The tree alone decides it. So it comes
out alike on two hosts that have the same tree, whatever else is on them.
-/

namespace ArchiveTraversal

/-- What is settled about a member before its data is looked at. -/
inductive Preparation where
  | refused (error : SecurityError)
  | obstructed (error : IoError)
  | directory
  | blocked
  | file (location : Location)

/-- The event is of a member that is passed over, or of a file that gives way to one. -/
def Event.isPreparation : Event → Bool
  | .memberSkipped .. | .memberBlocked _ | .fileReplaced _ => true
  | _ => false

theorem Event.chunk?_of_preparation {event : Event} (preparation : event.isPreparation = true) :
    Record.chunk? (.event event) = none := by
  cases event with
  | chunkRead => cases preparation
  | _ => rfl

namespace Host

def prepare (host : Host) (output : Path) (info : MemberInfo) : Preparation × Host :=
  match Safety.destination info with
  | .error error => (.refused error, host.event (.memberSkipped info.path error))
  | .ok relative =>
      match host.clearFileAncestors output relative with
      | (.error error, host) => (.obstructed error, host)
      | (.ok (), host) =>
          if info.isDirectory then
            match host.placeDirectory (output.join relative) with
            | (.error error, host) => (.obstructed error, host)
            | (.ok (), host) => (.directory, host)
          else match host.makeDirectories ((output.join relative).parent?.getD []) with
            | (.error error, host) => (.obstructed error, host)
            | (.ok (), host) =>
                if host.tree.isDirectory (output.join relative) then
                  (.blocked, host.event (.memberBlocked info.path))
                else match host.tree.createFile (output.join relative) with
                  | .error error => (.obstructed error, host)
                  | .ok (location, tree) => (.file location, { host with tree := tree })

/-- The host after something that another one has done, which began with the same tree and an empty
journal. -/
def follow (host other : Host) : Host :=
  { host with tree := other.tree, journal := host.journal ++ other.journal }

def alone (tree : FileTree) : Host := { tree := tree }

@[simp] theorem follow_tree (host other : Host) : (host.follow other).tree = other.tree := rfl

@[simp] theorem follow_cancelled (host other : Host) :
    (host.follow other).cancelled = host.cancelled := rfl

theorem follow_alone (host : Host) : host.follow (alone host.tree) = host := by
  simp [follow, alone]

theorem follow_event (host other : Host) (event : Event) :
    (host.follow other).event event = host.follow (other.event event) := by
  simp [follow, Host.event, record]

theorem follow_adds (host other : Host) : host.Adds (host.follow other) other.journal.toList := by
  simp [Adds, follow]

theorem clearFiles_follow (host other : Host) (paths : List Path) :
    (host.follow other).clearFiles paths =
      ((other.clearFiles paths).1, host.follow (other.clearFiles paths).2) := by
  induction paths generalizing other with
  | nil => rfl
  | cons path deeper ih =>
      simp only [clearFiles, follow_event, follow_tree]
      split
      · split
        · rfl
        · rename_i tree _
          exact ih { other.event (.fileReplaced path) with tree := tree }
      · exact ih other

theorem placeDirectory_follow (host other : Host) (path : Path) :
    (host.follow other).placeDirectory path =
      ((other.placeDirectory path).1, host.follow (other.placeDirectory path).2) := by
  unfold placeDirectory
  rw [follow_tree]
  split
  · split <;> rfl
  · rfl

theorem prepare_follow (host other : Host) (output : Path) (info : MemberInfo) :
    (host.follow other).prepare output info =
      ((other.prepare output info).1, host.follow (other.prepare output info).2) := by
  unfold prepare
  cases Safety.destination info with
  | error error => exact congrArg _ (follow_event ..)
  | ok relative =>
      dsimp only
      rw [clearFileAncestors, clearFiles_follow, ← clearFileAncestors]
      obtain ⟨cleared, between⟩ := other.clearFileAncestors output relative
      cases cleared with
      | error error => rfl
      | ok _ =>
          dsimp only
          split
          · rw [placeDirectory_follow]
            obtain ⟨placed, after⟩ := between.placeDirectory (output.join relative)
            cases placed <;> rfl
          · simp only [makeDirectories, follow_tree]
            obtain ⟨made, tree⟩ :=
              between.tree.makeDirectories ((output.join relative).parent?.getD [])
            cases made with
            | error error => rfl
            | ok _ =>
                dsimp only
                split
                · exact congrArg _ (follow_event host { between with tree := tree } _)
                · split <;> rfl

/-- The tree decides what comes of a member, and what is logged of it. -/
theorem prepare_eq (host : Host) (output : Path) (info : MemberInfo) :
    host.prepare output info =
      (((alone host.tree).prepare output info).1,
        host.follow ((alone host.tree).prepare output info).2) := by
  rw [← prepare_follow, follow_alone]

inductive Prepares (host : Host) (output : Path) (info : MemberInfo) : Preparation × Host → Prop
  | refused {error : SecurityError} (unaccepted : Safety.destination info = .error error) :
      Prepares host output info (.refused error, host.event (.memberSkipped info.path error))
  | uncleared {relative : Path} {error : IoError} {after : Host}
      (safe : Safety.destination info = .ok relative)
      (clearing : host.clearFileAncestors output relative = (.error error, after)) :
      Prepares host output info (.obstructed error, after)
  | placed {relative : Path} {result : Except IoError Unit} {between after : Host}
      (safe : Safety.destination info = .ok relative)
      (clearing : host.clearFileAncestors output relative = (.ok (), between))
      (placing : between.placeDirectory (output.join relative) = (result, after)) :
      Prepares host output info
        (match result with | .error error => .obstructed error | .ok () => .directory, after)
  | unmade {relative : Path} {error : IoError} {between after : Host}
      (safe : Safety.destination info = .ok relative)
      (clearing : host.clearFileAncestors output relative = (.ok (), between))
      (making : between.makeDirectories ((output.join relative).parent?.getD []) =
        (.error error, after)) :
      Prepares host output info (.obstructed error, after)
  | blocked {relative : Path} {between made : Host}
      (safe : Safety.destination info = .ok relative)
      (clearing : host.clearFileAncestors output relative = (.ok (), between))
      (making : between.makeDirectories ((output.join relative).parent?.getD []) = (.ok (), made))
      (stands : made.tree.isDirectory (output.join relative) = true) :
      Prepares host output info (.blocked, made.event (.memberBlocked info.path))
  | uncreated {relative : Path} {error : IoError} {between made : Host}
      (safe : Safety.destination info = .ok relative)
      (clearing : host.clearFileAncestors output relative = (.ok (), between))
      (making : between.makeDirectories ((output.join relative).parent?.getD []) = (.ok (), made))
      (creating : made.tree.createFile (output.join relative) = .error error) :
      Prepares host output info (.obstructed error, made)
  | file {relative : Path} {location : Location} {tree : FileTree} {between made : Host}
      (safe : Safety.destination info = .ok relative)
      (clearing : host.clearFileAncestors output relative = (.ok (), between))
      (making : between.makeDirectories ((output.join relative).parent?.getD []) = (.ok (), made))
      (creating : made.tree.createFile (output.join relative) = .ok (location, tree)) :
      Prepares host output info (.file location, { made with tree := tree })

theorem prepare_prepares (host : Host) (output : Path) (info : MemberInfo) :
    host.Prepares output info (host.prepare output info) := by
  unfold prepare
  split
  · rename_i unaccepted
    exact .refused unaccepted
  · rename_i safe
    split
    · rename_i clearing
      exact .uncleared safe clearing
    · rename_i clearing
      split
      · split
        · rename_i placing
          exact .placed safe clearing placing
        · rename_i placing
          exact .placed safe clearing placing
      · split
        · rename_i making
          exact .unmade safe clearing making
        · rename_i making
          split
          · rename_i stands
            exact .blocked safe clearing making stands
          · split
            · rename_i creating
              exact .uncreated safe clearing making creating
            · rename_i creating
              exact .file safe clearing making creating

theorem clearFileAncestors_rearranged {host after : Host} {output relative : Path}
    {result : Except IoError Unit}
    (clearing : host.clearFileAncestors output relative = (result, after)) :
    host.Rearranged after := by
  have cleared := host.clearFiles_rearranged (output.leadingTo relative.names)
  rwa [← clearFileAncestors, clearing] at cleared

theorem makeDirectories_made {host after : Host} {path : Path} {result : Except IoError Unit}
    (making : host.makeDirectories path = (result, after)) :
    host.tree.makeDirectories path = (result, after.tree) ∧
      after = { host with tree := after.tree } := by
  cases making
  exact ⟨rfl, rfl⟩

theorem makeDirectories_rearranged {host after : Host} {path : Path}
    {result : Except IoError Unit} (making : host.makeDirectories path = (result, after)) :
    host.Rearranged after := by
  rw [(makeDirectories_made making).2]
  exact host.rearranged _

theorem prepare_rearranged (host : Host) (output : Path) (info : MemberInfo) :
    host.Rearranged (host.prepare output info).2 := by
  have prepares := host.prepare_prepares output info
  generalize host.prepare output info = prepared at *
  cases prepares with
  | refused => exact event_rearranged ..
  | uncleared _ clearing => exact clearFileAncestors_rearranged clearing
  | @placed relative _ between _ _ clearing placing =>
      have placed := between.placeDirectory_rearranged (output.join relative)
      rw [placing] at placed
      exact (clearFileAncestors_rearranged clearing).trans placed
  | unmade _ clearing making =>
      exact (clearFileAncestors_rearranged clearing).trans (makeDirectories_rearranged making)
  | blocked _ clearing making =>
      exact ((clearFileAncestors_rearranged clearing).trans
        (makeDirectories_rearranged making)).trans (event_rearranged ..)
  | uncreated _ clearing making =>
      exact (clearFileAncestors_rearranged clearing).trans (makeDirectories_rearranged making)
  | file _ clearing making =>
      exact ((clearFileAncestors_rearranged clearing).trans
        (makeDirectories_rearranged making)).trans (rearranged ..)

theorem clearFileAncestors_clears {host after : Host} {output relative : Path}
    {result : Except IoError Unit}
    (clearing : host.clearFileAncestors output relative = (result, after)) :
    host.Clears after := by
  have clears := host.clearFiles_clears (output.leadingTo relative.names)
  rwa [← clearFileAncestors, clearing] at clears

theorem makeDirectories_journal {host after : Host} {path : Path} {result : Except IoError Unit}
    (making : host.makeDirectories path = (result, after)) : after.journal = host.journal := by
  rw [(makeDirectories_made making).2]

theorem Clears.tells {before after : Host} (clears : before.Clears after) :
    ∃ events : List Event, before.Adds after (events.map .event) ∧
      ∀ event ∈ events, event.isPreparation = true := by
  obtain ⟨paths, adds⟩ := clears
  refine ⟨paths.map .fileReplaced, by rw [List.map_map]; exact adds, ?_⟩
  intro event member
  obtain ⟨path, _, rfl⟩ := List.mem_map.mp member
  rfl

theorem prepare_tells (host : Host) (output : Path) (info : MemberInfo) :
    ∃ events : List Event, host.Adds (host.prepare output info).2 (events.map .event) ∧
      ∀ event ∈ events, event.isPreparation = true := by
  have prepares := host.prepare_prepares output info
  generalize host.prepare output info = prepared at *
  cases prepares with
  | refused => exact ⟨[_], host.event_adds _, by simp [Event.isPreparation]⟩
  | uncleared _ clearing => exact (clearFileAncestors_clears clearing).tells
  | @placed relative _ between _ _ clearing placing =>
      have placed := between.placeDirectory_journal (output.join relative)
      rw [placing] at placed
      exact ((clearFileAncestors_clears clearing).of_journal placed).tells
  | unmade _ clearing making =>
      exact ((clearFileAncestors_clears clearing).of_journal
        (makeDirectories_journal making)).tells
  | @blocked _ _ made _ clearing making =>
      obtain ⟨events, adds, preparation⟩ := ((clearFileAncestors_clears clearing).of_journal
        (makeDirectories_journal making)).tells
      refine ⟨events ++ [.memberBlocked info.path], ?_, ?_⟩
      · rw [List.map_append]
        exact adds.trans (made.event_adds _)
      · intro event member
        rcases List.mem_append.mp member with early | last
        · exact preparation event early
        · rw [List.mem_singleton.mp last]
          rfl
  | uncreated _ clearing making =>
      exact ((clearFileAncestors_clears clearing).of_journal
        (makeDirectories_journal making)).tells
  | @file _ _ tree _ made _ clearing making =>
      have clears := (clearFileAncestors_clears clearing).of_journal
        (makeDirectories_journal making)
      have opened : host.Clears { made with tree := tree } := clears.of_journal rfl
      exact opened.tells

theorem target?_prepare (host : Host) (output : Path) (info : MemberInfo) :
    host.target? output info =
      match host.prepare output info with
      | (.file location, ready) => some (location, ready)
      | _ => none := by
  unfold target? prepare
  cases Safety.destination info with
  | error error => rfl
  | ok relative =>
      dsimp only
      obtain ⟨cleared | _, between⟩ := host.clearFileAncestors output relative
      · rfl
      cases info.isDirectory with
      | true =>
          dsimp only
          obtain ⟨placed | _, after⟩ := between.placeDirectory (output.join relative) <;> rfl
      | false =>
          dsimp only
          obtain ⟨made | _, after⟩ :=
            between.makeDirectories ((output.join relative).parent?.getD [])
          · rfl
          dsimp only
          cases after.tree.isDirectory (output.join relative) with
          | true => rfl
          | false => cases after.tree.createFile (output.join relative) <;> rfl

theorem target?_of_file {host ready : Host} {output : Path} {info : MemberInfo}
    {location : Location} (prepared : host.prepare output info = (.file location, ready)) :
    host.target? output info = some (location, ready) := by
  rw [target?_prepare, prepared]

theorem prepare_of_target {host ready : Host} {output : Path} {info : MemberInfo}
    {location : Location} (found : host.target? output info = some (location, ready)) :
    host.prepare output info = (.file location, ready) := by
  rw [target?_prepare] at found
  split at found
  · rename_i prepared
    cases found
    exact prepared
  · cases found

end Host

theorem UnpackJob.unpackMember_prepare (job : UnpackJob) (info : MemberInfo) (tally : Tally)
    (session : Session) (host : Host) :
    job.unpackMember info tally session host =
      match host.prepare job.output info with
      | (.refused _, after) => ⟨.ok { tally with skipped := tally.skipped + 1 }, session, after⟩
      | (.obstructed error, after) => ⟨.error (.io error), session, after⟩
      | (.directory, after) =>
          ⟨.ok { tally with directories := tally.directories + 1 }, session, after⟩
      | (.blocked, after) => ⟨.ok { tally with skipped := tally.skipped + 1 }, session, after⟩
      | (.file location, ready) => job.fillFile info.path location tally session ready := by
  unfold unpackMember unpackFile Host.prepare
  cases Safety.destination info with
  | error error => rfl
  | ok relative =>
      dsimp only
      obtain ⟨cleared | _, between⟩ := host.clearFileAncestors job.output relative
      · rfl
      cases info.isDirectory with
      | true =>
          dsimp only
          obtain ⟨placed | _, after⟩ := between.placeDirectory (job.output.join relative) <;> rfl
      | false =>
          dsimp only
          obtain ⟨made | _, after⟩ :=
            between.makeDirectories ((job.output.join relative).parent?.getD [])
          · rfl
          dsimp only
          cases after.tree.isDirectory (job.output.join relative) with
          | true => rfl
          | false => cases after.tree.createFile (job.output.join relative) <;> rfl

/-- The flag is as it was, and no more is logged than goes before the data of a member. -/
structure Host.Readies (before after : Host) : Prop where
  flag : after.cancelled = before.cancelled
  tells : ∃ events : List Event, before.Adds after (events.map .event) ∧
    ∀ event ∈ events, event.isPreparation = true

theorem Host.prepare_readies (host : Host) (output : Path) (info : MemberInfo) :
    host.Readies (host.prepare output info).2 :=
  ⟨(host.prepare_rearranged output info).cancelled, host.prepare_tells output info⟩

theorem UnpackJob.treat_cases (job : UnpackJob) (visit : Visit) :
    (∃ value after, job.treat visit = ⟨value, visit.session, after⟩ ∧
      visit.host.Readies after ∧ visit.host.target? job.output visit.info = none ∧
      ((∃ next, value = .ok next ∧ next.files = visit.tally.files ∧
          next.bytes = visit.tally.bytes) ∨ ∃ cause, value = .error (.io cause))) ∨
    ∃ location ready,
      job.treat visit =
        job.fillFile visit.info.path location visit.tally visit.session ready ∧
      visit.host.Readies ready ∧
      visit.host.target? job.output visit.info = some (location, ready) := by
  have readies := visit.host.prepare_readies job.output visit.info
  have target := visit.host.target?_prepare job.output visit.info
  rw [treat, unpackMember_prepare]
  generalize visit.host.prepare job.output visit.info = prepared at *
  obtain ⟨preparation, after⟩ := prepared
  cases preparation with
  | refused => exact .inl ⟨_, after, rfl, readies, target, .inl ⟨_, rfl, rfl, rfl⟩⟩
  | obstructed cause => exact .inl ⟨_, after, rfl, readies, target, .inr ⟨cause, rfl⟩⟩
  | directory => exact .inl ⟨_, after, rfl, readies, target, .inl ⟨_, rfl, rfl, rfl⟩⟩
  | blocked => exact .inl ⟨_, after, rfl, readies, target, .inl ⟨_, rfl, rfl, rfl⟩⟩
  | file location => exact .inr ⟨location, after, rfl, readies, target⟩

end ArchiveTraversal
