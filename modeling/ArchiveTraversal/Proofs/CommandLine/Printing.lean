import ArchiveTraversal.Proofs.CommandLine.Reports
import ArchiveTraversal.Proofs.Reader.Beginning
import ArchiveTraversal.Proofs.Session.Passage
import ArchiveTraversal.Proofs.Session.Rounds

/-!
Printing a member. The headers are gone through up to the first member of the name, and all that is
to be had of its data is printed, be it the whole or not; nothing else is. The decoder is asked for
data on that member only, and not for any header after it.
-/

namespace ArchiveTraversal

open Decoder

def Decoder.HeaderItem.Other (name : String) (item : HeaderItem) : Prop :=
  ∃ header, item.Gives header ∧ header.filename ≠ name

/-- The data that is printed of a member; a directory has none. -/
def Decoder.HeaderItem.printed (item : HeaderItem) : List DataItem :=
  if item.header.any Header.isDirectory then [] else item.data

def Decoder.HeaderItem.reads (item : HeaderItem) (capacity : Nat) : Nat :=
  if item.header.any Header.isDirectory then 0 else (chunks capacity item.data).length + 1

theorem Decoder.headers_of_others {name : String} {items : List HeaderItem}
    (others : ∀ item ∈ items, item.Other name) :
    ∃ headers, List.Forall₂ HeaderItem.Gives items headers ∧
      ∀ header ∈ headers, header.filename ≠ name := by
  induction items with
  | nil => exact ⟨[], .nil, by simp⟩
  | cons item rest ih =>
      obtain ⟨header, gives, differs⟩ := others item List.mem_cons_self
      obtain ⟨headers, give, differ⟩ := ih fun later member => others later (.tail _ member)
      exact ⟨header :: headers, .cons gives give, List.forall_mem_cons.mpr ⟨differs, differ⟩⟩

theorem Decoder.others_of_headers {name : String} {items : List HeaderItem}
    {headers : List Header} (give : List.Forall₂ HeaderItem.Gives items headers)
    (differ : ∀ header ∈ headers, header.filename ≠ name) : ∀ item ∈ items, item.Other name := by
  induction give with
  | nil => simp
  | cons gives _ ih =>
      obtain ⟨differs, others⟩ := List.forall_mem_cons.mp differ
      exact List.forall_mem_cons.mpr ⟨⟨_, gives, differs⟩, ih others⟩

namespace Session

variable {session after : Session} {host afterHost : Host} {headers : List Header} {name : String}

theorem seek_step (name : String) (session : Session) (host : Host) :
    session.seek name host =
      let moved := session.advance host
      match moved.value with
      | .error error => ⟨.error error, moved.session, moved.host⟩
      | .ok none => ⟨.ok none, moved.session, moved.host⟩
      | .ok (some header) =>
          if header.filename = name then ⟨.ok (some header), moved.session, moved.host⟩
          else moved.session.seek name moved.host := by
  rw [seek]
  dsimp only
  split <;> rename_i value <;> simp only [value]

theorem seek_extends (name : String) (session : Session) (host : Host) :
    host.Extends (session.seek name host).host := by
  fun_induction seek name session host with
  | case1 => exact advance_extends ..
  | case2 => exact advance_extends ..
  | case3 => exact advance_extends ..
  | case4 _ _ _ _ _ _ ih => exact (advance_extends ..).trans ih

theorem seek_of_stops
    (stops : ∀ header, (session.advance host).value = .ok (some header) → header.filename = name) :
    session.seek name host = session.advance host := by
  rw [seek_step]
  generalize session.advance host = moved at *
  obtain ⟨_ | _ | header, _, _⟩ := moved
  · rfl
  · rfl
  · exact if_pos (stops header rfl)

theorem Passes.seek (passes : session.Passes host headers after afterHost)
    (others : ∀ header ∈ headers, header.filename ≠ name) :
    session.seek name host = after.seek name afterHost := by
  induction passes with
  | nil => rfl
  | @cons session after host afterHost header headers moved _ ih =>
      rw [seek_step]
      simp only [moved]
      rw [if_neg (others header List.mem_cons_self)]
      exact ih fun later member => others later (List.mem_cons_of_mem _ member)

theorem MovedTo.prints {before : Session} {item : HeaderItem} {header : Header}
    (movedTo : before.MovedTo item header session)
    (positive : 0 < session.setup.options.chunkSize) :
    session.yield = (chunks session.setup.options.chunkSize item.printed).flatten ∧
      session.failure? = (fault? item.printed).map (session.readError .data) ∧
      session.readsLeft = item.reads session.setup.options.chunkSize := by
  obtain ⟨lent, stands, same⟩ := Option.map_eq_some_iff.mp movedTo.current
  have directory : session.current.any (·.header.isDirectory) = header.isDirectory := by
    rw [stands, Option.any_some, same]
  unfold yield failure? readsLeft HeaderItem.printed HeaderItem.reads
  rw [directory, movedTo.given, movedTo.data, movedTo.cursor, Option.any_some]
  cases header.isDirectory with
  | true => exact ⟨rfl, rfl, rfl⟩
  | false => exact ⟨(flatten_chunks positive _).symm, rfl, rfl⟩

theorem copyTo_unlimited (onMember : session.cursor = .onMember)
    (positive : 0 < session.setup.options.chunkSize) (host : Host) :
    let copied := session.copyTo Sink.unlimited.recording ((), []) host
    copied.value.2.2.reverse.flatten = session.yield ∧
      copied.value.1 = (match session.failure? with
        | none => .ok session.yield.length
        | some error => .error (.archive error)) ∧
      host.Makes session.handle.number (List.replicate session.readsLeft
        (.readData session.setup.options.chunkSize)) copied.host := by
  intro copied
  have delivered := copyTo_delivers onMember positive (Sink.unlimited_hasRoom diskFull) () host
  obtain ⟨count, made, _, _, exactly⟩ :=
    forEachChunk_calls (copier Sink.unlimited.recording) (0, (), []) session host
  obtain ⟨result, bytes⟩ := Prod.mk.inj delivered
  refine ⟨bytes, result, ?_⟩
  -- A walk that is stopped would make for a copy that the destination has refused.
  rw [← exactly positive fun ⟨cause, stopped⟩ => ?_]
  · exact made
  · simp only [copyTo, stopped] at result
    cases failed : session.failure? <;> rw [failed] at result <;> cases result

end Session

namespace CommandLine

section

variable {session : Session} {host : Host} {name : String}

theorem printMember_extends (name : String) (session : Session) (host : Host) :
    host.Extends (printMember name session host).host := by
  have copied : host.Extends (session.copyTo Sink.unlimited.recording ((), []) host).host :=
    session.forEachChunk_extends ..
  unfold printMember
  dsimp only
  split
  · exact copied.trans (Session.close_extends ..)
  · exact (copied.trans (Host.event_extends ..)).trans (Session.close_extends ..)

theorem printMember_prints (onMember : session.cursor = .onMember)
    (positive : 0 < session.setup.options.chunkSize) (name : String) (host : Host) :
    let printed := printMember name session host
    printed.stdout = session.yield ∧
      printed.result = (match session.failure? with
        | none => .ok ()
        | some error => .error (.copy (.archive error))) ∧
      ∃ (last : Session) (between : Host), last.handle.number = session.handle.number ∧
        host.Makes session.handle.number (List.replicate session.readsLeft
          (.readData session.setup.options.chunkSize)) between ∧
        printed.host = (last.close between).2.2 := by
  obtain ⟨bytes, result, made⟩ := Session.copyTo_unlimited onMember positive host
  have number : (session.copyTo Sink.unlimited.recording ((), []) host).session.handle.number =
      session.handle.number := session.forEachChunk_number ..
  unfold printMember
  dsimp only
  cases failed : session.failure? with
  | none =>
      rw [failed] at result
      rw [result]
      exact ⟨bytes, rfl, _, _, number, (Host.event_quiet ..).calls.trans made, rfl⟩
  | some error =>
      rw [failed] at result
      rw [result]
      exact ⟨bytes, rfl, _, _, number, made, rfl⟩

end

/-- What comes of printing a member of an archive that opens, when so many headers have given
members of other names and these are left. -/
inductive Prints (archive : Path) (name : String) (host : Host) (passed : Nat) :
    List HeaderItem → Completed → Prop
  | found {item : HeaderItem} {later : List HeaderItem} {header : Header} {after : Host}
      (gives : item.Gives header) (named : header.filename = name)
      (called : host.Makes host.allocated (lifeCalls defaultBlockSize archive
        (List.replicate (passed + 1) .nextHeader ++
          List.replicate (item.reads defaultChunkSize) (.readData defaultChunkSize))) after) :
      Prints archive name host passed (item :: later)
        ⟨(match fault? item.printed with
          | none => .ok ()
          | some reason => .error (.copy (.archive (.reading archive .data reason)))),
          (chunks defaultChunkSize item.printed).flatten, after⟩
  | missing {rest : List HeaderItem} {after : Host}
      (ends : ∀ item ∈ rest.head?, item.reply.code = 1)
      (called : host.Makes host.allocated
        (lifeCalls defaultBlockSize archive (List.replicate (passed + 1) .nextHeader)) after) :
      Prints archive name host passed rest ⟨.error (.memberNotFound name), [], after⟩
  | broken {item : HeaderItem} {later : List HeaderItem} {after : Host}
      (goesOn : item.reply.code ≠ 1) (useless : ∀ header, ¬ item.Gives header)
      (called : host.Makes host.allocated
        (lifeCalls defaultBlockSize archive (List.replicate (passed + 1) .nextHeader)) after) :
      Prints archive name host passed (item :: later)
        ⟨.error (.archive (.reading archive .header
          (item.reply.diagnostic.reason item.reply.code))), [], after⟩

def printSought (name : String) (sought : Outcome (Except ArchiveError (Option Header))) :
    Completed :=
  match sought.value with
  | .ok (some _) => printMember name sought.session sought.host
  | .ok none => ⟨.error (.memberNotFound name), [], (sought.session.close sought.host).2.2⟩
  | .error error => ⟨.error (.archive error), [], (sought.session.close sought.host).2.2⟩

structure Comes (archive : Path) (name : String) (host : Host) (passed : Nat)
    (rest : List HeaderItem) (sought : Outcome (Except ArchiveError (Option Header))) : Prop where
  setup : sought.session.setup = ⟨archive, ReaderOptions.normalized {}⟩
  number : sought.session.handle.number = host.allocated
  calls : host.Makes host.allocated
    (openingCalls defaultBlockSize archive ++ List.replicate (passed + 1) .nextHeader) sought.host
  hears : Session.Hears archive rest sought.value
  stands : ∀ header, sought.value = .ok (some header) → header.filename = name ∧
    ∃ before item, rest.head? = some item ∧ Session.MovedTo before item header sought.session

theorem runPrint_comes {archive : Path} {name : String} {host : Host} {script : Script}
    {before rest : List HeaderItem} (opens : Reader.Opens archive host script)
    (split : script.headers = before ++ rest) (others : ∀ item ∈ before, item.Other name)
    (stops : ∀ item ∈ rest.head?, ¬ item.Other name) :
    ∃ sought, runPrint archive name host = printSought name sought ∧
      Comes archive name host before.length rest sought := by
  have begins := Reader.openSession_begins archive {} host
  unfold runPrint
  generalize (Reader.new archive).openSession host = outcome at *
  cases begins with
  | refused shut => exact absurd opens (shut script)
  | @opened other session between opensToo setup handle start called =>
      cases opens.unique opensToo
      have number : session.handle.number = host.allocated := by rw [handle]; rfl
      have left : session.handle.headers = before ++ rest := by rw [handle, ← split]; rfl
      obtain ⟨headers, give, differ⟩ := headers_of_others others
      obtain ⟨after, afterHost, passes, onward⟩ :=
        Session.Going.passes (.inl start) left give between
      have going := passes.going (.inl start)
      have passed := passes.requested (.inl start)
      have requested := passed.trans (going.requested afterHost)
      have stands : ∀ header, (after.advance afterHost).value = .ok (some header) →
          header.filename = name ∧ ∃ before item, rest.head? = some item ∧
            Session.MovedTo before item header (after.advance afterHost).session := by
        intro header moved
        obtain ⟨item, movedTo⟩ := Session.movedTo_of_advance moved
        have first : rest.head? = some item := by rw [← onward, movedTo.left]; rfl
        refine ⟨?_, after, item, first, movedTo⟩
        by_contra differs
        exact stops item first ⟨header, ⟨movedTo.code, movedTo.given⟩, differs⟩
      have sought : session.seek name between = after.advance afterHost :=
        (passes.seek differ).trans
          (Session.seek_of_stops fun header moved => (stands header moved).1)
      refine ⟨session.seek name between, rfl, ?_⟩
      rw [sought]
      refine ⟨requested.setup.trans setup, requested.number.trans number, ?_, ?_, stands⟩
      · have asked := requested.calls
        rw [number, ← give.length_eq] at asked
        exact called.trans asked
      · have hears := going.advance_hears afterHost
        rwa [onward, Session.path, passed.setup, setup] at hears

theorem Comes.prints {archive : Path} {name : String} {host : Host} {passed : Nat}
    {rest : List HeaderItem} {sought : Outcome (Except ArchiveError (Option Header))}
    (comes : Comes archive name host passed rest sought) :
    Prints archive name host passed rest (printSought name sought) := by
  obtain ⟨setup, number, calls, hears, stands⟩ := comes
  obtain ⟨value, last, lastHost⟩ := sought
  cases hears with
  | broken goesOn useless => exact .broken goesOn useless (Session.makes_life number calls)
  | ended ends => exact .missing ends (Session.makes_life number calls)
  | @member item later header gives =>
      obtain ⟨named, before, _, ⟨⟩, movedTo⟩ := stands header rfl
      have positive : 0 < last.setup.options.chunkSize := by
        rw [setup]
        exact ReaderOptions.chunkSize_normalized_pos {}
      obtain ⟨yield, failure, reads⟩ := movedTo.prints positive
      obtain ⟨bytes, result, closing, between, held, made, freed⟩ :=
        printMember_prints movedTo.cursor positive name lastHost
      have whole := calls.trans (number ▸ made)
      rw [List.append_assoc, reads, setup] at whole
      have life := Session.makes_life (held.trans number) whole
      rw [← freed] at life
      rw [yield, setup] at bytes
      have path : last.path = archive := congrArg Setup.path setup
      have told : (printMember name last lastHost).result = match fault? item.printed with
          | none => .ok ()
          | some reason => .error (.copy (.archive (.reading archive .data reason))) := by
        rw [result, failure]
        cases fault? item.printed with
        | none => rfl
        | some reason => simp only [Option.map_some, Session.readError, path]
      change Prints archive name host passed (item :: later) (printMember name last lastHost)
      generalize printMember name last lastHost = printed at *
      obtain ⟨_, _, _⟩ := printed
      cases bytes
      cases told
      exact .found gives named life

theorem runPrint_prints {archive : Path} {host : Host} {script : Script}
    (opens : Reader.Opens archive host script) (name : String) :
    ∃ passed rest, Prints archive name host passed rest (runPrint archive name host) := by
  obtain ⟨passed, headers, rest, split, give, differ, stops⟩ :=
    passed_over (fun header => header.filename = name) script.headers
  have others : ∀ item ∈ passed, item.Other name := others_of_headers give differ
  have ends : ∀ item ∈ rest.head?, ¬ item.Other name :=
    fun item first ⟨header, gives, differs⟩ => differs (stops item first header gives)
  obtain ⟨sought, same, comes⟩ := runPrint_comes opens split others ends
  exact ⟨passed.length, rest, same ▸ comes.prints⟩

theorem Prints.frees_once {archive : Path} {name : String} {host : Host} {script : Script}
    {passed : Nat} {rest : List HeaderItem} {completed : Completed}
    (prints : Prints archive name host passed rest completed)
    (opens : Reader.Opens archive host script) :
    ∃ calls, host.Makes host.allocated calls completed.host ∧
      FreesOnce host.decoders.head?.join calls := by
  cases prints with
  | found _ _ called => exact ⟨_, called, opens.frees_once _ (by simp [List.mem_replicate])⟩
  | missing _ called => exact ⟨_, called, opens.frees_once _ (by simp [List.mem_replicate])⟩
  | broken _ _ called => exact ⟨_, called, opens.frees_once _ (by simp [List.mem_replicate])⟩

theorem exitOf_stdout (filter : LogFilter) (completed : Completed) :
    (exitOf filter completed).stdout = completed.stdout := by
  unfold exitOf
  split <;> rfl

theorem exitOf_of_failure (filter : LogFilter) {completed : Completed} {failure : Failure}
    (failed : completed.result = .error failure) :
    (exitOf filter completed).code = 1 ∧
      (exitOf filter completed).stderr.getLast? = some ("Error: " ++ failure.report) := by
  unfold exitOf
  rw [failed]
  exact ⟨rfl, List.getLast?_concat⟩

theorem runPrint_refused {archive : Path} {host : Host}
    (shut : ∀ script, ¬ Reader.Opens archive host script) (name : String) :
    ∃ failure, (runPrint archive name host).result = .error failure ∧
      (runPrint archive name host).stdout = [] ∧
      ∃ calls, host.Makes host.allocated calls (runPrint archive name host).host ∧
        FreesOnce host.decoders.head?.join calls := by
  have begins := Reader.openSession_begins archive {} host
  unfold runPrint
  generalize (Reader.new archive).openSession host = outcome at *
  cases begins with
  | opened opens => exact absurd opens (shut _)
  | refused _ first called => exact ⟨_, rfl, rfl, _, called, first.frees_once⟩

theorem runPrint_tree (archive : Path) (name : String) (host : Host) :
    (runPrint archive name host).host.tree = host.tree := by
  have opening := Reader.openSession_tree (Reader.new archive) host
  unfold runPrint
  generalize (Reader.new archive).openSession host = outcome at *
  obtain ⟨session | ⟨error, reader⟩, between⟩ := outcome
  · refine Eq.trans ?_ opening
    have sought := session.seek_extends name between
    dsimp only
    split
    · exact ((printMember_extends ..).tree).trans sought.tree
    · exact ((Session.close_extends ..).tree).trans sought.tree
    · exact ((Session.close_extends ..).tree).trans sought.tree
  · exact opening

/-- The first member of a name is printed, however many there are: all that is to be had of its
data, chunk by chunk, and nothing of a directory. The decoder is asked for its header and those
before it, then for its data, and is freed. The code tells whether its data could be read to the
end. If the archive ends before there is such a member, or a header fails, or if the archive does
not open at all, nothing is printed. In no case is anything in the tree touched, and a decoder that
has been handed out is freed once. -/
theorem print_exact {arguments : List Bytes} {archive : Path} {name : String}
    (parsed : readArguments arguments = .ok (.run (.print archive name)))
    (logSetting : Option String) (host : Host) :
    let ran := run arguments logSetting host
    let life (headers reads : Nat) : List Call :=
      [.allocate, .supportFilters, .supportFormats, .openFile defaultBlockSize archive] ++
        (List.replicate headers .nextHeader ++
          List.replicate reads (.readData defaultChunkSize)) ++ [.free]
    (∀ script before rest, Reader.Opens archive host script → script.headers = before ++ rest →
      (∀ item ∈ before, item.Other name) →
      (∀ item header, rest.head? = some item → item.Gives header → header.filename = name →
        ran.1.stdout = (chunks defaultChunkSize item.printed).flatten ∧
        (ran.1.code = 0 ↔ fault? item.printed = none) ∧ (ran.1.code = 0 ∨ ran.1.code = 1) ∧
        host.Makes host.allocated (life (before.length + 1) (item.reads defaultChunkSize))
          ran.2) ∧
      ((∀ item ∈ rest.head?, item.reply.code = 1) →
        ran.1.stdout = [] ∧ ran.1.code = 1 ∧
        ran.1.stderr.getLast? = some ("Error: member not found in archive: " ++ name) ∧
        host.Makes host.allocated (life (before.length + 1) 0) ran.2) ∧
      ∀ item, rest.head? = some item → item.reply.code ≠ 1 → (∀ header, ¬ item.Gives header) →
        ran.1.stdout = [] ∧ ran.1.code = 1 ∧
        host.Makes host.allocated (life (before.length + 1) 0) ran.2) ∧
    ((∀ script, ¬ Reader.Opens archive host script) → ran.1.stdout = [] ∧ ran.1.code = 1) ∧
    ran.2.tree = host.tree ∧ ∃ calls, host.Makes host.allocated calls ran.2 ∧
      FreesOnce host.decoders.head?.join calls := by
  intro ran life
  have made : ran = (exitOf (.ofSetting logSetting) (runPrint archive name host),
      (runPrint archive name host).host) := run_of_parsed parsed logSetting host
  have unread (count : Nat) : life count 0 =
      lifeCalls defaultBlockSize archive (List.replicate count .nextHeader) := by
    simp [life, lifeCalls, openingCalls]
  have exits := @exitOf_of_failure (.ofSetting logSetting) (runPrint archive name host)
  have stdout := exitOf_stdout (.ofSetting logSetting) (runPrint archive name host)
  have code := exitOf_code (.ofSetting logSetting) (runPrint archive name host)
  rw [made]
  refine ⟨fun script before rest opens split others => ?_, fun shut => ?_, runPrint_tree .., ?_⟩
  · -- The search ends at the first header that is left: with a member, the end, or a failure.
    have prints (stops : ∀ item ∈ rest.head?, ¬ item.Other name) :
        Prints archive name host before.length rest (runPrint archive name host) := by
      obtain ⟨sought, same, comes⟩ := runPrint_comes opens split others stops
      exact same ▸ comes.prints
    dsimp only
    rw [stdout]
    generalize runPrint archive name host = completed at *
    refine ⟨fun item header first gives named => ?_, fun ends => ?_,
      fun item first goesOn useless => ?_⟩
    · have stops : ∀ next ∈ rest.head?, ¬ next.Other name := by
        rintro next there ⟨other, givesToo, differs⟩
        cases first.symm.trans there
        cases gives.2.symm.trans givesToo.2
        exact differs named
      cases prints stops with
      | @found _ later _ after _ _ called =>
          cases first
          refine ⟨rfl, code.1.trans ?_, code.2, called⟩
          dsimp only
          cases fault? item.printed <;> simp
      | missing ends => cases (ends item first).symm.trans gives.1
      | broken _ useless =>
          cases first
          exact absurd gives (useless header)
    · have stops : ∀ next ∈ rest.head?, ¬ next.Other name := by
        rintro next there ⟨_, gives, _⟩
        cases (ends next there).symm.trans gives.1
      cases prints stops with
      | found gives => cases (ends _ rfl).symm.trans gives.1
      | missing _ called => exact ⟨rfl, (exits rfl).1, (exits rfl).2, unread _ ▸ called⟩
      | broken goesOn => exact absurd (ends _ rfl) goesOn
    · have stops : ∀ next ∈ rest.head?, ¬ next.Other name := by
        rintro next there ⟨header, gives, _⟩
        cases first.symm.trans there
        exact useless header gives
      cases prints stops with
      | found gives =>
          cases first
          exact absurd gives (useless _)
      | missing ends => exact absurd (ends item first) goesOn
      | broken _ _ called => exact ⟨rfl, (exits rfl).1, unread _ ▸ called⟩
  · obtain ⟨failure, failed, nothing, _⟩ := runPrint_refused shut name
    exact ⟨stdout.trans nothing, (exits failed).1⟩
  · by_cases shut : ∀ script, ¬ Reader.Opens archive host script
    · obtain ⟨_, _, _, calls, called, freed⟩ := runPrint_refused shut name
      exact ⟨calls, called, freed⟩
    · obtain ⟨script, opens⟩ := not_forall_not.mp shut
      obtain ⟨_, _, prints⟩ := runPrint_prints opens name
      exact prints.frees_once opens

/-- Two members come to the same name, as neither has one that is text. The first of them is printed
as far as it can be read, after a directory that has been passed over. -/
theorem cut_short_member_printed :
    let archive : Path := [0x61]
    let name := Text.Utf8.decodeLossy [0xFF]
    let directory : HeaderItem := { header := some ⟨some [0x64], none, 0, true, 0o40755⟩ }
    let first : HeaderItem :=
      { header := some ⟨none, some [0xFF], 2, true, 0o100644⟩
        data := [{ serving := .content [1, 2] }, { serving := .raw (-30) [] }] }
    let second : HeaderItem :=
      { header := some ⟨none, some [0xFE], 1, true, 0o100644⟩
        data := [{ serving := .content [3] }] }
    let host : Host :=
      { decoders := [some { headers := [directory, first, second] }], tree := treeWith archive }
    let ran := run (["cat", "a", name].map Text.Utf8.encode) none host
    ran.1.code = 1 ∧ ran.1.stdout = [1, 2] ∧
      ran.2.calls = ([.allocate, .supportFilters, .supportFormats, .openFile 10240 archive,
        .nextHeader, .nextHeader, .readData 10240, .readData 10240, .free] : List Call).map
          (Prod.mk 0) := by
  intro archive name directory first second host ran
  have parsed : readArguments (["cat", "a", name].map Text.Utf8.encode) =
      .ok (.run (.print archive name)) := by decide +kernel
  have opens : Reader.Opens archive host { headers := [directory, first, second] } :=
    ⟨by decide +kernel, ⟨[], rfl⟩, by decide, by decide, rfl⟩
  have other : ∀ item ∈ [directory], item.Other name := by
    rintro item (_ | ⟨_, ⟨⟩⟩)
    exact ⟨_, ⟨rfl, rfl⟩, by decide +kernel⟩
  obtain ⟨searched, -⟩ := print_exact parsed none host
  obtain ⟨found, -⟩ := searched _ [directory] [first, second] opens rfl other
  obtain ⟨stdout, fine, codes, calls⟩ := found first _ rfl ⟨rfl, rfl⟩ (by decide +kernel)
  have broken : fault? first.printed = some (.status (-30)) := by cbv
  have printed : (chunks defaultChunkSize first.printed).flatten = [1, 2] := by cbv
  have reads : first.reads defaultChunkSize = 2 := by cbv
  rw [broken] at fine
  rw [reads] at calls
  exact ⟨codes.resolve_left (fun zero => by cases fine.mp zero), stdout.trans printed, calls⟩

end CommandLine

end ArchiveTraversal
