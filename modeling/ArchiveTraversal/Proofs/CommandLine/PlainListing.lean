import ArchiveTraversal.Proofs.CommandLine.Printing
import ArchiveTraversal.Proofs.Text.Utf8

/-!
The plain listing read back. Fields of a line stand apart by blanks alone, one of them a number in a
column that fills up with blanks or is too narrow, and a name may be anything. Still a line is read
from its start: neither the mark nor the number has a blank in it, so the name is what is left.
-/

namespace ArchiveTraversal

open Text

/-- What the plain listing tells of a member: whether it is a directory, its size, and its name. -/
def MemberInfo.row (info : MemberInfo) : Bool × Int × String :=
  (info.isDirectory, info.size, info.path)

/-- No text in the listing goes on to another line. -/
structure Listing.SingleLined (listing : Listing) : Prop where
  names : ∀ member ∈ listing.members, '\n' ∉ member.path.toList
  format : ∀ format ∈ listing.format, '\n' ∉ format.toList
  filters : ∀ filter ∈ listing.filters, '\n' ∉ filter.toList

namespace CommandLine

def lineFeed : UInt8 := 0x0A

def linesOf (stdout : Bytes) : List Bytes := (stdout.splitOn lineFeed).dropLast

def readMark? : Char → Option Bool
  | 'd' => some true
  | '-' => some false
  | _ => none

def readMember? (line : Bytes) : Option (Bool × Int × String) := do
  match (← Utf8.decode? line).toList with
  | mark :: _ :: column =>
      let filled := column.dropWhile (· = ' ')
      let number := filled.takeWhile (· ≠ ' ')
      let name := filled.drop (number.length + 1)
      return (← readMark? mark, ← (String.ofList number).toInt?, String.ofList name)
  | _ => none

def readMembers? (stdout : Bytes) : Option (List (Bool × Int × String)) :=
  (linesOf stdout).dropLast.mapM readMember?

def readCount? (stdout : Bytes) : Option Nat := do
  let line ← Utf8.decode? (← (linesOf stdout).getLast?)
  (String.ofList (line.toList.takeWhile Char.isDigit)).toNat?

theorem isDigit_of_mem_toString {number : Nat} {character : Char}
    (among : character ∈ (toString number).toList) : character.isDigit = true := by
  have digits : (toString number).toList = Nat.toDigits 10 number := Nat.toList_repr
  rw [digits] at among
  exact Nat.isDigit_of_mem_toDigits (by decide) (by decide) among

theorem toString_of_int (number : Int) :
    ∃ count : Nat, toString number = toString count ∨ toString number = "-" ++ toString count := by
  cases number with
  | ofNat count => exact ⟨count, .inl rfl⟩
  | negSucc below => exact ⟨below + 1, .inr rfl⟩

theorem toString_ne_nil (number : Int) : (toString number).toList ≠ [] := by
  obtain ⟨count, written | written⟩ := toString_of_int number
  · rw [written]
    exact fun empty => Nat.repr_ne_empty (String.toList_eq_nil_iff.mp empty)
  · rw [written, String.toList_append]
    exact List.cons_ne_nil _ _

theorem isDigit_or_dash {number : Int} {character : Char}
    (among : character ∈ (toString number).toList) :
    character.isDigit = true ∨ character = '-' := by
  obtain ⟨count, written | written⟩ := toString_of_int number
  · rw [written] at among
    exact .inl (isDigit_of_mem_toString among)
  · rw [written, String.toList_append] at among
    rcases List.mem_append.mp among with dash | digit
    · exact .inr (List.mem_singleton.mp dash)
    · exact .inl (isDigit_of_mem_toString digit)

theorem not_mem_number (number : Int) (character : Char) (digitless : character.isDigit = false)
    (other : character ≠ '-') : character ∉ (toString number).toList := by
  intro among
  rcases isDigit_or_dash among with digit | dash
  · exact absurd digit (by simp [digitless])
  · exact other dash

def mark (info : MemberInfo) : Char := if info.isDirectory then 'd' else '-'

theorem readMark?_mark (info : MemberInfo) : readMark? (mark info) = some info.isDirectory := by
  unfold mark
  cases info.isDirectory <;> rfl

theorem memberLine_toList (info : MemberInfo) :
    (memberLine info).toList = mark info :: ' ' ::
      (List.replicate (12 - (toString info.size).length) ' ' ++
        ((toString info.size).toList ++ ' ' :: info.path.toList)) := by
  have first : (if info.isDirectory then "d" else "-").toList = [mark info] := by
    unfold mark
    cases info.isDirectory <;> rfl
  simp only [memberLine, rightAligned, String.toList_append, first, String.toList_ofList]
  simp

/-- The blanks before a number are told from it, and the number from what follows the next blank. -/
theorem number_of_column (blanks : Nat) {number : List Char} (written : number ≠ [])
    (solid : ' ' ∉ number) (rest : List Char) :
    let filled := (List.replicate blanks ' ' ++ (number ++ ' ' :: rest)).dropWhile (· = ' ')
    filled.takeWhile (· ≠ ' ') = number ∧ filled.drop (number.length + 1) = rest := by
  intro filled
  have same : filled = number ++ ' ' :: rest := by
    obtain ⟨first, others, rfl⟩ := List.exists_cons_of_ne_nil written
    have clear : first ≠ ' ' := fun blank => solid (by simp [blank])
    have passed := @List.dropWhile_append_of_pos _ (fun character => decide (character = ' '))
      (List.replicate blanks ' ') (first :: others ++ ' ' :: rest) (by simp [List.mem_replicate])
    exact passed.trans (List.dropWhile_cons_of_neg (by simpa using clear))
  rw [same]
  constructor
  · have clear : ∀ character ∈ number, decide (character ≠ ' ') = true := by
      intro character among
      simp only [decide_eq_true_eq]
      rintro rfl
      exact solid among
    rw [List.takeWhile_append_of_pos clear, List.takeWhile_cons_of_neg (by decide),
      List.append_nil]
  · rw [List.drop_append, List.drop_eq_nil_of_le (Nat.le_succ _), Nat.add_sub_cancel_left]
    rfl

theorem readMember?_memberLine (info : MemberInfo) :
    readMember? (Utf8.encode (memberLine info)) = some info.row := by
  obtain ⟨number, name⟩ := number_of_column (12 - (toString info.size).length)
    (toString_ne_nil info.size) (not_mem_number info.size ' ' (by decide) (by decide))
    info.path.toList
  have size : (toString info.size).toInt? = some info.size := Int.toInt?_repr info.size
  simp only [readMember?, Utf8.decode?_encode, Option.bind_eq_bind, Option.bind_some,
    memberLine_toList, number, name, readMark?_mark, String.ofList_toList, size, MemberInfo.row]
  rfl

theorem digits_of_summaryLine (listing : Listing) :
    (summaryLine listing).toList.takeWhile Char.isDigit =
      (toString listing.members.length).toList := by
  have blank : " entries, ".toList = ' ' :: "entries, ".toList := by decide
  simp only [summaryLine, String.append_assoc, String.toList_append]
  rw [List.takeWhile_append_of_pos (fun _ => isDigit_of_mem_toString), blank, List.cons_append,
    List.takeWhile_cons_of_neg (by decide), List.append_nil]

theorem not_mem_memberLine {info : MemberInfo} (name : '\n' ∉ info.path.toList) :
    '\n' ∉ (memberLine info).toList := by
  have number := not_mem_number info.size '\n' (by decide) (by decide)
  have first : '\n' ≠ mark info := by
    unfold mark
    split <;> decide
  simp only [memberLine_toList, List.mem_cons, List.mem_append, List.mem_replicate, not_or, not_and]
  exact ⟨first, by decide, fun _ => by decide, number, by decide, name⟩

theorem not_mem_summaryLine {listing : Listing} (singleLined : listing.SingleLined) :
    '\n' ∉ (summaryLine listing).toList := by
  have count := not_mem_number listing.members.length '\n' (by decide) (by decide)
  have total := not_mem_number listing.totalSize '\n' (by decide) (by decide)
  have format : '\n' ∉ (listing.format.getD "unknown format").toList := by
    cases known : listing.format with
    | none => decide
    | some format => exact singleLined.format format known
  have filters : '\n' ∉ (String.join (listing.filters.map (", " ++ ·))).toList := by
    simp only [String.toList_join, List.mem_flatMap, List.mem_map, not_exists, not_and]
    rintro _ ⟨filter, among, rfl⟩
    simp only [String.toList_append, List.mem_append, not_or]
    exact ⟨by decide, singleLined.filters filter among⟩
  simp only [summaryLine, String.toList_append, List.mem_append, not_or]
  exact ⟨⟨⟨⟨⟨⟨count, by decide⟩, total⟩, by decide⟩, format⟩, filters⟩, by decide⟩

theorem splitOn_endings {lines : List Bytes} {ending : UInt8}
    (clear : ∀ line ∈ lines, ending ∉ line) :
    (lines.flatMap (· ++ [ending])).splitOn ending = lines ++ [[]] := by
  induction lines with
  | nil => rfl
  | cons line rest ih =>
      have here := clear line List.mem_cons_self
      have later := ih fun other among => clear other (List.mem_cons_of_mem line among)
      rw [List.flatMap_cons, List.append_assoc, List.singleton_append,
        List.splitOn_append_cons_self_of_not_mem here, later, List.cons_append]

theorem encode_endings (lines : List String) :
    Utf8.encode (String.join (lines.map (· ++ "\n"))) =
      (lines.map Utf8.encode).flatMap (· ++ [lineFeed]) := by
  induction lines with
  | nil => rfl
  | cons line rest ih =>
      rw [List.map_cons, String.join_cons, Utf8.encode_append, Utf8.encode_append, ih,
        List.map_cons, List.flatMap_cons]
      rfl

theorem lineFeed_not_mem_encode {text : String} (singleLined : '\n' ∉ text.toList) :
    lineFeed ∉ Utf8.encode text := by
  intro among
  obtain ⟨character, written, byte⟩ := List.mem_flatMap.mp among
  have code := Utf8.toNat_of_mem_encodeChar (by decide) byte
  have same : character = '\n' := Char.toNat_inj.mp code
  exact singleLined (same ▸ written)

theorem linesOf_plainListing {listing : Listing} (singleLined : listing.SingleLined) :
    linesOf (Utf8.encode (plainListing listing)) =
      (listing.members.map memberLine ++ [summaryLine listing]).map Utf8.encode := by
  have clear : ∀ line ∈ (listing.members.map memberLine ++ [summaryLine listing]).map Utf8.encode,
      lineFeed ∉ line := by
    intro bytes among
    obtain ⟨line, written, rfl⟩ := List.mem_map.mp among
    apply lineFeed_not_mem_encode
    rcases List.mem_append.mp written with member | last
    · obtain ⟨info, present, rfl⟩ := List.mem_map.mp member
      exact not_mem_memberLine (singleLined.names info present)
    · cases List.mem_singleton.mp last
      exact not_mem_summaryLine singleLined
  rw [linesOf, plainListing, encode_endings, splitOn_endings clear, List.dropLast_concat]

theorem readMembers?_plainListing {listing : Listing} (singleLined : listing.SingleLined) :
    readMembers? (Utf8.encode (plainListing listing)) =
      some (listing.members.map MemberInfo.row) := by
  have read : readMember? ∘ (Utf8.encode ∘ memberLine) = fun info => some info.row :=
    funext readMember?_memberLine
  rw [readMembers?, linesOf_plainListing singleLined, List.map_append, List.map_singleton,
    List.dropLast_concat, List.map_map, List.mapM_map, read]
  exact List.mapM_pure

theorem readCount?_plainListing {listing : Listing} (singleLined : listing.SingleLined) :
    readCount? (Utf8.encode (plainListing listing)) = some listing.members.length := by
  have count : (toString listing.members.length).toNat? = some listing.members.length :=
    Nat.toNat?_repr _
  rw [readCount?, linesOf_plainListing singleLined, List.map_append, List.map_singleton,
    List.getLast?_concat]
  simp only [Option.bind_eq_bind, Option.bind_some, Utf8.decode?_encode, digits_of_summaryLine,
    String.ofList_toList, count]

/-- The arguments ask for the plain listing of an archive, which can be listed, and no text of it
goes on to another line. -/
structure ListsPlainly (arguments : List Bytes) (archive : Path) (host : Host) (listing : Listing) :
    Prop where
  parsed : readArguments arguments = .ok (.run (.list archive false))
  listed : (Listing.ofArchive archive {} host).1 = .ok listing
  singleLined : listing.SingleLined

theorem ListsPlainly.exit {arguments : List Bytes} {archive : Path} {host : Host}
    {listing : Listing} (lists : ListsPlainly arguments archive host listing)
    (logSetting : Option String) :
    (run arguments logSetting host).1.code = 0 ∧
      (run arguments logSetting host).1.stdout = Utf8.encode (plainListing listing) := by
  have completed : (runCommand (.list archive false) host).result = .ok () ∧
      (runCommand (.list archive false) host).stdout = Utf8.encode (plainListing listing) := by
    have listed := lists.listed
    simp only [runCommand, runList]
    generalize Listing.ofArchive archive {} host = outcome at listed
    obtain ⟨value, after⟩ := outcome
    cases listed
    exact ⟨rfl, rfl⟩
  rw [run_of_parsed lists.parsed, exitOf_stdout]
  exact ⟨(exitOf_code _ _).1.mpr completed.1, completed.2⟩

/-- A plain listing tells its members apart. A run that lists an archive succeeds, and a line feed
ends each line that it writes: one line for each member, in order, and a last one that begins with
their number. Whether a member is a directory, its size and its name are read back from its line, be
the size below zero or too wide for its column, and be the name empty or full of blanks and digits.
So two such runs with the same output have listed the same, whatever archives it was in. -/
theorem plain_listing_unambiguous {arguments : List Bytes} {archive : Path} {host : Host}
    {listing : Listing} (lists : ListsPlainly arguments archive host listing)
    (logSetting : Option String) :
    let ran := (run arguments logSetting host).1
    ran.code = 0 ∧ ran.stdout = (linesOf ran.stdout).flatMap (· ++ [lineFeed]) ∧
      linesOf ran.stdout =
        (listing.members.map memberLine ++ [summaryLine listing]).map Utf8.encode ∧
      readMembers? ran.stdout = some (listing.members.map MemberInfo.row) ∧
      readCount? ran.stdout = some listing.members.length ∧
      ∀ (others : List Bytes) (other : Path) (elsewhere : Host) (another : Listing)
        (setting : Option String), ListsPlainly others other elsewhere another →
          (run others setting elsewhere).1.stdout = ran.stdout →
            another.members.map MemberInfo.row = listing.members.map MemberInfo.row := by
  intro ran
  obtain ⟨code, stdout⟩ := lists.exit logSetting
  have members := readMembers?_plainListing lists.singleLined
  refine ⟨code, ?_⟩
  change ran.stdout = _ at stdout
  rw [stdout]
  refine ⟨?_, linesOf_plainListing lists.singleLined, members,
    readCount?_plainListing lists.singleLined, ?_⟩
  · rw [linesOf_plainListing lists.singleLined, ← encode_endings]
    rfl
  · intro others other elsewhere another setting alike same
    rw [(alike.exit setting).2] at same
    have read := readMembers?_plainListing alike.singleLined
    rw [same, members] at read
    exact (Option.some.inj read).symm

/-- A member without a name and a size below zero, and two whose names have blanks and digits in
them, with sizes that are too wide for their column. The last of them may be a link or a file: its
line does not tell, and only tells that it is no directory. -/
theorem awkward_names_read_back :
    let archive : Path := [0x78]
    let item (name : Bytes) (size : Int) (mode : Nat) : Decoder.HeaderItem :=
      { header := some ⟨some name, none, size, true, mode⟩ }
    let host (mode : Nat) : Host :=
      { decoders := [some { headers := [item [] (-1) 0o100644,
          item [0x20, 0x37, 0x20] (2 ^ 63 - 1) 0o40755,
          item [0x31, 0x20, 0x32] (-2 ^ 63) mode] }]
        tree := { entries := [(archive, .file [0])] } }
    let listing (kind : MemberKind) : Listing :=
      { format := none, filters := [], totalSize := 2 ^ 63 - 1,
        members := [⟨"", -1, .file⟩, ⟨" 7 ", 2 ^ 63 - 1, .directory⟩, ⟨"1 2", -2 ^ 63, kind⟩] }
    let arguments := ["list", "x"].map Utf8.encode
    let stdout (mode : Nat) := (run arguments none (host mode)).1.stdout
    ListsPlainly arguments archive (host 0o120777) (listing .symlink) ∧
      stdout 0o100644 = stdout 0o120777 ∧ readCount? (stdout 0o100644) = some 3 ∧
      readMembers? (stdout 0o100644) = some
        [(false, -1, ""), (true, 2 ^ 63 - 1, " 7 "), (false, -2 ^ 63, "1 2")] ∧
      (listing .symlink).members.map MemberInfo.row =
        (listing .file).members.map MemberInfo.row := by
  intro archive item host listing arguments stdout
  have parsed : readArguments arguments = .ok (.run (.list archive false)) := by decide +kernel
  have singleLined (kind : MemberKind) : (listing kind).SingleLined :=
    ⟨by simp [listing], by simp [listing], by simp [listing]⟩
  have file : ListsPlainly arguments archive (host 0o100644) (listing .file) :=
    ⟨parsed, by decide +kernel, singleLined .file⟩
  have link : ListsPlainly arguments archive (host 0o120777) (listing .symlink) :=
    ⟨parsed, by decide +kernel, singleLined .symlink⟩
  have same : stdout 0o120777 = stdout 0o100644 := by decide +kernel
  obtain ⟨-, -, -, members, count, alone⟩ := plain_listing_unambiguous file none
  exact ⟨link, same.symm, count, members, alone _ _ _ _ none link same⟩

end CommandLine
end ArchiveTraversal
