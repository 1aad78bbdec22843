import Mathlib
import ArchiveTraversal.Proofs.FileTree.Fresh
import ArchiveTraversal.Proofs.Unpack.Containment
import ArchiveTraversal.Proofs.Unpack.Placement

/-!
What an unpack that succeeds leaves below its output directory: the placements that the archive
asks for, made one after the other over what stood there. A member that gets through has cleared
the files on its way and made the directories; then its own place holds what it asks for.
-/

namespace ArchiveTraversal

open FileTree

namespace FileTree

variable {tree : FileTree} {base : Location}

def view (tree : FileTree) (base : Location) : View := fun names => tree.at? (base ++ names)

theorem Clear.directory {output : Path} (clear : tree.Clear output base) :
    tree.view base [] = some .directory := by
  obtain ⟨left, final, reaches, rfl⟩ := directory?_eq_some_iff.mp clear.named
  simpa [view] using reaches.stands.at?

theorem onWay_iff {names below : List Name} :
    OnWay base names (base ++ below) ↔ below ≠ [] ∧ below <+: names := by
  constructor
  · rintro ⟨above, nonempty, upper, same⟩
    rw [List.append_cancel_left same]
    exact ⟨nonempty, upper⟩
  · rintro ⟨nonempty, upper⟩
    exact ⟨below, nonempty, upper, rfl⟩

/-- Nothing has changed but on the way to some names. -/
def Along (base : Location) (names : List Name) (before after : FileTree) : Prop :=
  ∀ location, after.at? location = before.at? location ∨ OnWay base names location

theorem Along.refl (base : Location) (names : List Name) (tree : FileTree) :
    Along base names tree tree := fun _ => .inl rfl

theorem Along.trans {before between after : FileTree} {names : List Name}
    (first : Along base names before between) (second : Along base names between after) :
    Along base names before after := by
  intro location
  rcases second location with same | onWay
  · rw [same]
    exact first location
  · exact .inr onWay

theorem Along.longer {before after : FileTree} {names more : List Name}
    (along : Along base names before after) (shorter : names <+: more) :
    Along base more before after := by
  intro location
  exact (along location).imp_right fun onWay => onWay.longer shorter

/-- Directories made along a way that has been changed before: all of it is directories now, and
what is not on it has not changed. -/
theorem Paves.view {cleared grown : FileTree} {names : List Name}
    (paves : Paves base names cleared (.ok (), grown)) (along : Along base names tree cleared)
    (below : List Name) :
    grown.view base below =
      if below ≠ [] ∧ below <+: names then some .directory else tree.view base below := by
  split
  · rename_i upper
    exact paves.complete rfl _ (onWay_iff.mpr upper)
  · rename_i aside
    have apart : ¬ OnWay base names (base ++ below) := fun onWay => aside (onWay_iff.mp onWay)
    have kept : Along base names tree grown := along.trans paves.within
    exact (kept (base ++ below)).resolve_right apart

end FileTree

def Leading (output : Path) (names : List Name) (paths : List Path) : Prop :=
  ∀ path ∈ paths, ∃ upper, upper ≠ [] ∧ upper <+: names ∧
    (∀ name ∈ upper, Path.Plain name) ∧ path.Spells output upper

theorem leading_leadingTo {output relative : Path} {info : MemberInfo} {above : List Name}
    {last : Name} (accepted : Safety.destination info = .ok relative)
    (names : relative.names = above ++ [last]) :
    Leading output above (output.leadingTo relative.names) := by
  obtain ⟨_, plain, _, _⟩ := Safety.destination_ok accepted
  intro path member
  obtain ⟨upper, below, split, nonempty, more, spells⟩ := Path.spells_leadingTo plain member
  refine ⟨upper, nonempty, ?_, fun name inner => plain name (by simp [split, inner]), spells⟩
  -- What is below is not empty, so the last name is part of it.
  obtain ⟨between, final, ends⟩ := (List.eq_nil_or_concat below).resolve_left more
  rw [split, ends, List.concat_eq_append, ← List.append_assoc] at names
  rw [← (List.append_inj' names rfl).1]
  exact List.prefix_append upper between

namespace Host

variable {host : Host} {output : Path} {base : Location} {names : List Name}

theorem removeFile_along {tree smaller : FileTree} {path : Path} {upper : List Name}
    (clear : tree.Clear output base) (nonempty : upper ≠ []) (shorter : upper <+: names)
    (plain : ∀ name ∈ upper, Path.Plain name) (spells : path.Spells output upper)
    (removed : tree.removeFile path = .ok smaller) :
    smaller.Clear output base ∧ Along base names tree smaller := by
  constructor
  · exact clear.alters ((removeFile_contained ⟨upper, nonempty, plain, spells⟩ removed).alters base
      clear)
  · intro location
    obtain ⟨vacant, _, same⟩ := clear.removeFile_ok spells nonempty plain removed
    by_cases there : location = base ++ upper
    · exact .inr ⟨upper, nonempty, shorter, there⟩
    · left
      rw [same, vacant.at?_remove, if_neg there]

theorem clearFiles_along {paths : List Path} (clear : host.tree.Clear output base)
    (leading : Leading output names paths) :
    (host.clearFiles paths).2.tree.Clear output base ∧
      Along base names host.tree (host.clearFiles paths).2.tree := by
  induction paths generalizing host with
  | nil => exact ⟨clear, .refl base names host.tree⟩
  | cons path deeper ih =>
      have rest : Leading output names deeper :=
        fun other member => leading other (List.mem_cons_of_mem _ member)
      obtain ⟨upper, nonempty, shorter, plain, spells⟩ := leading path List.mem_cons_self
      simp only [clearFiles]
      split
      · cases removed : (host.event (.fileReplaced path)).tree.removeFile path with
        | error error => exact ⟨clear, .refl base names host.tree⟩
        | ok tree =>
            obtain ⟨still, along⟩ := removeFile_along clear nonempty shorter plain spells removed
            have later : ({ host.event (.fileReplaced path) with tree := tree } : Host).tree.Clear
                output base := still
            obtain ⟨stillLater, alongLater⟩ := ih later rest
            exact ⟨stillLater, along.trans alongLater⟩
      · exact ih clear rest

theorem placeDirectory_view {path : Path} {after : Host} (clear : host.tree.Clear output base)
    (nonempty : names ≠ []) (plain : ∀ name ∈ names, Path.Plain name)
    (spells : path.Spells output names) {before : FileTree}
    (along : Along base names before host.tree)
    (placed : host.placeDirectory path = (.ok (), after)) (below : List Name) :
    after.tree.view base below =
      if below ≠ [] ∧ below <+: names then some .directory else before.view base below := by
  unfold placeDirectory at placed
  split at placed
  · split at placed
    · cases placed
    · rename_i tree removed
      obtain ⟨still, alongLater⟩ :=
        removeFile_along clear nonempty (List.prefix_refl names) plain spells removed
      have paves := still.makeInside spells plain
      unfold makeDirectories FileTree.makeDirectories at placed
      cases made : tree.makeInside path.ancestors with
      | mk result grown =>
          rw [made] at placed paves
          cases placed
          exact paves.view (along.trans alongLater) below
  · have paves := clear.makeInside spells plain
    unfold makeDirectories FileTree.makeDirectories at placed
    cases made : host.tree.makeInside path.ancestors with
    | mk result grown =>
        rw [made] at placed paves
        cases placed
        exact paves.view along below

end Host

namespace UnpackJob

variable {job : UnpackJob} {session : Session} {host : Host} {tally final : Tally}

theorem fillFile_ok {name : String} {location : Location} (onData : session.OnData)
    (positive : 0 < session.setup.options.chunkSize)
    (ok : (job.fillFile name location tally session host).value = .ok final) :
    (job.fillFile name location tally session host).host.tree = host.tree.put location
      (.file (Decoder.served session.setup.options.chunkSize session.handle.data)) := by
  have tree := (session.forEachChunk_extends job.writer { total := tally.bytes } host).tree
  have walked := Session.forEachChunk_walked job.writer { total := tally.bytes } host onData positive
  unfold fillFile at ok ⊢
  dsimp only at ok ⊢
  split at ok
  · cases ok
  · cases ok
  · rename_i complete
    rw [report_tree, ← Decoder.flatten_chunks positive, ← (writer_content (walked.taken complete)).1,
      ← tree]
    rfl

theorem unpackFile_view {name : String} {destination : Path} {base : Location}
    {above : List Name} {last : Name} {before : FileTree}
    (clear : host.tree.Clear job.output base)
    (plain : ∀ name ∈ above ++ [last], Path.Plain name)
    (spells : destination.Spells job.output (above ++ [last]))
    (along : Along base above before host.tree)
    (directory : before.view base [] = some .directory) (onData : session.OnData)
    (positive : 0 < session.setup.options.chunkSize)
    (ok : (job.unpackFile name destination tally session host).value = .ok final) :
    (job.unpackFile name destination tally session host).host.tree.view base =
      Placement.onto ⟨above ++ [last], some (Decoder.served session.setup.options.chunkSize
        session.handle.data)⟩ (before.view base) := by
  obtain ⟨parent, found, spellsParent⟩ := spells.parent?
  have paves := clear.makeInside spellsParent fun name member => plain name (by simp [member])
  have still := clear.alters paves.alters
  have cases := job.unpackFile_cases tally session host name destination
  rw [found, Option.getD_some] at cases
  unfold FileTree.makeDirectories at cases
  rcases cases with ⟨_, _, _, ends⟩ | ⟨tree, made, rest⟩
  · rw [ends] at ok
    cases ok
  rw [made] at paves still
  have view := paves.view along
  -- The file's own place is not on the way to it.
  have aside : ¬ above ++ [last] <+: above := by
    intro shorter
    have length := shorter.length_le
    simp only [List.length_append, List.length_singleton] at length
    omega
  have own := view (above ++ [last])
  simp only [aside, and_false, ↓reduceIte] at own
  rcases rest with ⟨is, ends⟩ | ⟨_, ⟨_, _, ends⟩ | ⟨location, opened, created, ends⟩⟩
  -- The file gives way to the directory, and so does its placement.
  · have stands : tree.view base (above ++ [last]) = some .directory :=
      still.isDirectory_ok spells (by simp) plain is
    rw [ends]
    funext below
    rw [Placement.onto_of_file directory]
    by_cases here : below = above ++ [last]
    · subst here
      rw [if_pos rfl, ← own, stands, if_pos rfl]
      exact stands
    · rw [if_neg here]
      exact view below
  · rw [ends] at ok
    cases ok
  · rw [ends] at ok ⊢
    have filled := fillFile_ok onData positive ok
    obtain ⟨rfl, vacant, rfl⟩ := still.createFile_ok spells (by simp) plain created
    have refilled := vacant.at?_put_again []
      (Decoder.served session.setup.options.chunkSize session.handle.data)
    funext below
    rw [Placement.onto_of_file directory, filled]
    by_cases here : below = above ++ [last]
    · subst here
      have leaf : tree.view base (above ++ [last]) ≠ some .directory := vacant.leaf
      rw [own] at leaf
      rw [if_pos rfl, if_neg leaf]
      exact (refilled _).trans (if_pos rfl)
    · rw [if_neg here]
      have elsewhere : base ++ below ≠ base ++ (above ++ [last]) :=
        fun same => here (List.append_cancel_left same)
      exact ((refilled _).trans (if_neg elsewhere)).trans (view below)

theorem unpackMember_view {info : MemberInfo} {base : Location}
    (clear : host.tree.Clear job.output base)
    (regular : info.isDirectory = false → session.OnData)
    (positive : 0 < session.setup.options.chunkSize)
    (ok : (job.unpackMember info tally session host).value = .ok final) :
    (job.unpackMember info tally session host).host.tree.view base =
      placeAll (Decoder.Member.placement? session.setup.options.chunkSize
        ⟨info, session.handle.data⟩).toList (host.tree.view base) := by
  unfold Decoder.Member.placement?
  rcases job.unpackMember_cases tally session host info with
    ⟨error, refused, ends⟩ | ⟨relative, accepted, rest⟩
  · rw [ends, refused]
    rfl
  obtain ⟨nonempty, plain, _, _⟩ := Safety.destination_ok accepted
  have spells := Safety.spells_destination accepted job.output
  obtain ⟨above, last, names⟩ := (List.eq_nil_or_concat relative.names).resolve_left nonempty
  rw [List.concat_eq_append] at names
  -- By the time that a member is placed, a file on the way to it is gone.
  have cleared := Host.clearFiles_along clear (leading_leadingTo accepted names)
  rw [← Host.clearFileAncestors] at cleared
  rcases rest with ⟨_, between, clearing, ends⟩ | ⟨between, clearing, rest⟩
  · rw [ends] at ok
    cases ok
  rw [clearing] at cleared
  obtain ⟨still, along⟩ := cleared
  rcases rest with ⟨is, ⟨_, after, placed, ends⟩ | ⟨after, placed, ends⟩⟩ | ⟨is, ends⟩
  · rw [ends] at ok
    cases ok
  · rw [ends, accepted, if_pos is]
    have longer : Along base relative.names host.tree between.tree := by
      rw [names]
      exact along.longer (List.prefix_append above [last])
    funext below
    change _ = Placement.onto ⟨relative.names, none⟩ (host.tree.view base) below
    rw [Placement.onto_of_directory clear.directory]
    exact Host.placeDirectory_view still nonempty plain spells longer placed below
  · rw [accepted, is]
    rw [ends] at ok ⊢
    rw [names] at plain spells
    have view := unpackFile_view still plain spells along clear.directory (regular is) positive ok
    rw [view, ← names]
    rfl

theorem unpackMembers_view {base : Location} (clear : host.tree.Clear job.output base)
    (going : session.Going) (positive : 0 < session.setup.options.chunkSize)
    (ok : (job.unpackMembers tally session host).value = .ok final) :
    (job.unpackMembers tally session host).host.tree.view base =
      placeAll ((Decoder.members session.handle.headers).filterMap
        (Decoder.Member.placement? session.setup.options.chunkSize)) (host.tree.view base) := by
  fun_induction unpackMembers job tally session host with
  | case1 => cases ok
  | case2 => cases ok
  | case3 tally session host _ _ ended =>
      have last := going.of_advance_none ended
      have none : Decoder.members session.handle.headers = [] := by
        cases left : session.handle.headers with
        | nil => rfl
        | cons item rest => simp [Decoder.members, last item (by simp [left])]
      rw [none]
      exact congrArg (FileTree.view · base) (session.advance_extends host).tree
  | case4 => cases ok
  | case5 tally session host _ advanced header moved _ between done ih =>
      obtain ⟨item, movedTo⟩ := Session.movedTo_of_advance moved
      have setup := session.advance_setup host
      have same := (session.advance_extends host).tree
      have clearNow : (session.advance host).host.tree.Clear job.output base := same ▸ clear
      -- One member is placed here, and the induction places those after it on top.
      have view := unpackMember_view clearNow movedTo.onData (by rw [setup]; exact positive) done
      have onMember := unpackMember_onMember movedTo.cursor movedTo.onData done
      have contained := job.unpackMember_contained header.info tally
        (session.advance host).session (session.advance host).host
      have still := clearNow.alters (contained.alters base clearNow)
      have kept := (job.unpackMember_setup tally (session.advance host).session
        (session.advance host).host header.info).trans setup
      have further := ih still (.inr onMember) (by rw [kept]; exact positive) ok
      rw [job.unpackMember_headers, kept, view, movedTo.data, setup, same] at further
      rw [further, movedTo.left]
      simp only [Decoder.members, movedTo.code, movedTo.given]
      unfold placeAll
      rw [← List.foldl_append]
      cases placed : Decoder.Member.placement? session.setup.options.chunkSize
          ⟨header.info, item.data⟩ <;> simp [placed, advanced]

end UnpackJob

/-- An unpack that succeeds has made its output directory and placed all that the archive asks for
below it. -/
theorem unpackArchive_placed {path output : Path} {options : UnpackOptions} {observer : Observer}
    {host : Host} {tally : Tally}
    (ok : (unpackArchive path output options observer host).1 = .ok tally) :
    ∃ script later made, host.decoders = some script :: later ∧
      host.tree.makeDirectories output = (.ok (), made) ∧
      ∀ base, made.Clear output base →
        (unpackArchive path output options observer host).2.tree.Clear output base ∧
        (unpackArchive path output options observer host).2.tree.view base =
          placeAll (script.placements options.reader.normalized.chunkSize) (made.view base) := by
  have opened := (Reader.new path options.reader).openSession_tree host
  rcases unpackArchive_cases path output options observer host with
    ⟨_, _, _, _, ends⟩ | ⟨session, between, started, ⟨_, _, _, ends⟩ | ⟨made, making, ends⟩⟩
  · rw [ends] at ok
    cases ok
  · rw [ends] at ok
    cases ok
  · rw [started] at opened
    dsimp only at opened
    rw [opened] at making
    obtain ⟨script, later, decoders, headers, setup, start⟩ := Reader.openSession_opened started
    refine ⟨script, later, made, decoders, making, fun base clear => ?_⟩
    rw [ends] at ok ⊢
    have closed := ((options.job output observer).unpackMembers {} session
      { between with tree := made }).session.close_extends
        ((options.job output observer).unpackMembers {} session { between with tree := made }).host
    -- From here on everything happens below the output directory, which stays clear of links.
    have contained := (options.job output observer).unpackMembers_contained {} session
      { between with tree := made }
    have positive : 0 < session.setup.options.chunkSize := by
      rw [setup]
      exact options.reader.chunkSize_normalized_pos
    have begun : ({ between with tree := made } : Host).tree.Clear (options.job output observer).output
      base := clear
    have placed := UnpackJob.unpackMembers_view begun (.inl start) positive ok
    dsimp only at closed ⊢
    rw [closed.tree]
    refine ⟨clear.alters (contained.alters base clear), ?_⟩
    rw [placed, headers, setup]
    rfl

/-- What is below the output directory after an unpack that succeeds, as long as there were no
links: the directories that were there or that a member asks for; elsewhere the last file that a
member puts, or else what was there; and nothing more. What was there is what making the output
directory has left, and that is what was there before, unless the output path climbs out of a
directory that had to be made. The directories do not depend on the order of the members. -/
theorem unpackArchive_result {path output : Path} {options : UnpackOptions} {observer : Observer}
    {host : Host} {tally : Tally}
    (ok : (unpackArchive path output options observer host).1 = .ok tally) :
    ∃ script later made, host.decoders = some script :: later ∧
      host.tree.makeDirectories output = (.ok (), made) ∧
      (output ≠ [] → ∃ base, made.directory? output = some base) ∧
      ∀ base, made.Clear output base →
        let after := (unpackArchive path output options observer host).2.tree
        let placements := script.placements options.reader.normalized.chunkSize
        after.directory? output = some base ∧
        (Path.up ∉ output.names ∨ host.tree.directory? output ≠ none →
          ∀ names, names ≠ [] → made.at? (base ++ names) = host.tree.at? (base ++ names)) ∧
        (∀ names, names ≠ [] →
          (after.at? (base ++ names) = some .directory ↔
            made.at? (base ++ names) = some .directory ∨
              ∃ placement ∈ placements, placement.Demands names) ∧
          (after.at? (base ++ names) ≠ some .directory →
            after.at? (base ++ names) =
              match lastContent? placements names with
              | some content => some (.file content)
              | none => made.at? (base ++ names)) ∧
          ∀ target, after.at? (base ++ names) ≠ some (.link target)) ∧
        ∀ (other : Host) (shuffled : Decoder.Script) (rest : List (Option Decoder.Script))
          (watcher : Observer) (count : Tally), other.tree = host.tree →
          other.decoders = some shuffled :: rest →
          (Decoder.members shuffled.headers).Perm (Decoder.members script.headers) →
          (unpackArchive path output options watcher other).1 = .ok count →
          ∀ names, names ≠ [] →
            ((unpackArchive path output options watcher other).2.tree.at? (base ++ names) =
                some .directory ↔ after.at? (base ++ names) = some .directory) := by
  obtain ⟨script, later, made, decoders, making, placed⟩ := unpackArchive_placed ok
  refine ⟨script, later, made, decoders, making, ?_, ?_⟩
  · intro nonempty
    exact makeDirectories_named nonempty making
  · intro base clear after placements
    obtain ⟨clearAfter, view⟩ := placed base clear
    have directories : ∀ names, after.at? (base ++ names) = some .directory ↔
        made.at? (base ++ names) = some .directory ∨
          ∃ placement ∈ placements, placement.Demands names := by
      intro names
      have own := placeAll_directory_iff placements (made.view base) names
      rw [← view] at own
      exact own
    refine ⟨clearAfter.named, ?_, ?_, ?_⟩
    · intro settled names nonempty
      exact makeDirectories_below settled making clear.named nonempty
    · intro names nonempty
      refine ⟨directories names, ?_, ?_⟩
      · intro other
        have kept : after.view base names = placeAll placements (made.view base) names :=
          congrFun view names
        have notPlaced : placeAll placements (made.view base) names ≠ some .directory :=
          kept ▸ other
        exact kept.trans (placeAll_eq_of_not_directory notPlaced)
      · exact clearAfter.linkless _ ⟨names, nonempty, rfl⟩
    · intro other shuffled rest watcher count sameTree otherDecoders members otherOk names _
      obtain ⟨found, _, madeOther, decodersOther, makingOther, placedOther⟩ :=
        unpackArchive_placed otherOk
      rw [otherDecoders] at decodersOther
      cases decodersOther
      rw [sameTree, making] at makingOther
      cases makingOther
      obtain ⟨_, viewOther⟩ := placedOther base clear
      -- Another order of the members asks for the same placements.
      have same : ∀ placement, placement ∈ shuffled.placements
          options.reader.normalized.chunkSize ↔ placement ∈ placements := by
        intro placement
        exact (members.filterMap _).mem_iff
      rw [directories names]
      have own := placeAll_directory_iff
        (shuffled.placements options.reader.normalized.chunkSize) (made.view base) names
      rw [← viewOther] at own
      simp only [same] at own
      exact own

/-- A file gives way to a directory that a later member is in, another one is replaced by a member
of the same name, and a third is passed over for a directory of its name. The output directory had
to be made. -/
theorem clashing_members_result :
    let archive : Path := [0x78]
    let output : Path := [0x6F]
    let a : Name := [0x61]
    let b : Name := [0x62]
    let c : Name := [0x63]
    let header (names : List Name) (mode : Nat) : Header :=
      ⟨some (Path.glue names), none, 1, true, mode⟩
    let file (names : List Name) (content : Bytes) : Decoder.HeaderItem :=
      { header := some (header names 0o100644), data := [{ serving := .content content }] }
    let script : Decoder.Script :=
      { headers := [file [a] [1], file [a, b] [2], file [c, a] [3], file [c, a] [4, 5],
          { header := some (header [b] 0o40755) }, file [b] [6]] }
    let host : Host := { decoders := [some script], tree := { entries := [(archive, .file [0])] } }
    let ran := unpackArchive archive output {} (fun _ _ _ => {}) host
    let stands (names : List Name) := ran.2.tree.at? ([output] ++ names)
    ran.1 = .ok { files := 4, directories := 1, skipped := 1, bytes := 5 } ∧
      stands [a] = some .directory ∧ stands [a, b] = some (.file [2]) ∧
      stands [c] = some .directory ∧ stands [c, a] = some (.file [4, 5]) ∧
      stands [b] = some .directory ∧ stands [c, b] = none := by
  intro archive output a b c header file script host ran stands
  have ok : ran.1 = .ok { files := 4, directories := 1, skipped := 1, bytes := 5 } := by cbv
  obtain ⟨_, _, made, decoders, making, _, result⟩ := unpackArchive_result ok
  cases decoders
  have named : (host.tree.makeDirectories output).2.directory? output = some [output] := by cbv
  have grows := makeDirectories_grows host.tree output
  rw [making] at named grows
  have clear : made.Clear output [output] := by
    refine ⟨named, fun location _ target link => ?_⟩
    exact at?_single_ne_link archive [0] location target (grows.noNewLinks location target link)
  obtain ⟨_, settles, holds, _⟩ := result [output] clear
  have fresh (names : List Name) (some : names ≠ []) : made.at? ([output] ++ names) = none := by
    rw [settles (.inl (by decide)) names some]
    obtain ⟨name, rest, rfl⟩ := List.exists_cons_of_ne_nil some
    rfl
  have placements : script.placements ({} : UnpackOptions).reader.normalized.chunkSize =
      [⟨[a], some [1]⟩, ⟨[a, b], some [2]⟩, ⟨[c, a], some [3]⟩, ⟨[c, a], some [4, 5]⟩, ⟨[b], none⟩,
        ⟨[b], some [6]⟩] := by cbv
  simp only [placements] at holds
  have directory (names : List Name) (some : names ≠ []) :=
    fun asked => (holds names some).1.mpr (.inr asked)
  have elsewhere (names : List Name) (some : names ≠ []) := fun unasked =>
    (holds names some).2.1 fun is => ((holds names some).1.mp is).elim
      (fun before => by cases (fresh names some).symm.trans before) unasked
  refine ⟨ok, directory [a] (by decide) (by decide), elsewhere [a, b] (by decide) (by decide),
    directory [c] (by decide) (by decide), elsewhere [c, a] (by decide) (by decide),
    directory [b] (by decide) (by decide), ?_⟩
  exact (elsewhere [c, b] (by decide) (by decide)).trans (fresh [c, b] (by decide))

/-- Nothing stood below the output directory and no member asks for a directory; one is there all
the same, because the output path climbs out of it. -/
theorem climbing_output_holds_directory :
    let archive : Path := [0x78]
    let outer : Name := [0x61]
    let inner : Name := [0x62]
    let output : Path := Path.glue [outer, inner, Path.up]
    let header : Header := ⟨some [0x63], none, 1, true, 0o100644⟩
    let script : Decoder.Script :=
      { headers := [{ header := some header, data := [{ serving := .content [0x31] }] }] }
    let host : Host := { decoders := [some script], tree := { entries := [(archive, .file [0])] } }
    let ran := unpackArchive archive output {} (fun _ _ _ => {}) host
    ran.1 = .ok { files := 1, bytes := 1 } ∧ host.tree.directory? output = none ∧
      (∀ location target, host.tree.at? location ≠ some (.link target)) ∧
      ran.2.tree.directory? output = some [outer] ∧
      ¬ (ran.2.tree.at? ([outer] ++ [inner]) = some .directory ↔
        host.tree.at? ([outer] ++ [inner]) = some .directory ∨
          ∃ placement ∈ script.placements defaultChunkSize, placement.Demands [inner]) := by
  intro archive outer inner output header script host ran
  refine ⟨by cbv, by cbv, at?_single_ne_link archive [0], by cbv, ?_⟩
  intro same
  have stands : ran.2.tree.at? ([outer] ++ [inner]) = some .directory := by cbv
  have placements : script.placements defaultChunkSize = [⟨[[0x63]], some [0x31]⟩] := by cbv
  rw [placements] at same
  rcases same.mp stands with before | ⟨placement, member, asks⟩
  · cases before
  · cases List.mem_singleton.mp member
    rcases asks with ⟨upper, _⟩ | ⟨_, none⟩
    · exact absurd upper (by decide)
    · cases none

end ArchiveTraversal
