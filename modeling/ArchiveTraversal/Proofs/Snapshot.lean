import ArchiveTraversal.Proofs.Json.Decode
import ArchiveTraversal.Snapshot
import Mathlib.Tactic.MkIffOfInductiveProp

/-!
Snapshots survive being written and read. What each of them may be read from is said beside it: a
record from its fields by name, in any order and with others between them, or by place; a kind from
its name. What is written is one of these forms, so it is read back, and being written again changes
nothing more.
-/

namespace ArchiveTraversal

namespace Json

/-- What becomes of a JSON value when it is read and the result is written. -/
def normalized {Value : Type} (write : Value → Json) (read : Json → Decoded Value) (json : Json) :
    Decoded Json := (read json).map write

def fieldNames : Json → List String
  | .object fields => fields.map Prod.fst
  | _ => []

structure RoundTrips {Value : Type} (names : List String) (write : Value → Json)
    (read : Json → Decoded Value) (Fits : Value → Prop) (Denotes : Json → Value → Prop) : Prop where
  restored : ∀ value, Fits value → read (write value) = .ok value
  reads : ∀ json value, read json = .ok value ↔ Denotes json value
  fits : ∀ json value, read json = .ok value → Fits value
  settled : ∀ json canonical, normalized write read json = .ok canonical →
    canonical.fieldNames = names ∧ read canonical = read json ∧
      normalized write read canonical = .ok canonical

theorem roundTrips_of_denotes {Value : Type} {names : List String} {write : Value → Json}
    {read : Json → Decoded Value} {Fits : Value → Prop} {Denotes : Json → Value → Prop}
    (reads : ∀ json value, read json = .ok value ↔ Denotes json value)
    (writes : ∀ value, Fits value → Denotes (write value) value)
    (fits : ∀ json value, Denotes json value → Fits value)
    (named : ∀ value, (write value).fieldNames = names) :
    RoundTrips names write read Fits Denotes := by
  have restored : ∀ value, Fits value → read (write value) = .ok value :=
    fun value fit => (reads _ value).mpr (writes value fit)
  refine ⟨restored, reads, fun json value ok => fits json value ((reads json value).mp ok), ?_⟩
  intro json canonical ok
  obtain ⟨value, read, rfl⟩ := Decoded.map_ok_iff.mp ok
  have again := restored value (fits json value ((reads json value).mp read))
  exact ⟨named value, again.trans read.symm, by rw [normalized, again]; rfl⟩

/-- What is given for an optional text: nothing or null if there is none. -/
def DenotesText? (given : Option Json) (value : Option String) : Prop :=
  given = value.map .text ∨ given = some .null ∧ value = none

theorem decodeTexts_ok_iff {json : Json} {values : List String} :
    json.decodeList decodeText = .ok values ↔ json = .array (values.map .text) := by
  simp only [decodeList_ok_iff, decodeText_ok_iff]
  constructor
  · rintro ⟨elements, rfl, texts⟩
    congr 1
    exact List.forall₂_eq_eq_eq ▸ List.forall₂_map_right_iff.mpr texts
  · rintro rfl
    exact ⟨_, rfl, List.forall₂_map_left_iff.mpr (List.forall₂_same.mpr fun _ _ => rfl)⟩

theorem decodeOptionalText_ok_iff {json : Json} {value : Option String} :
    json.decodeOption decodeText = .ok value ↔ DenotesText? (some json) value := by
  rw [decodeOption_ok_iff, DenotesText?]
  cases value <;> cases json <;> simp [decodeText_ok_iff]

theorem decodeOptionalField_ok_iff {fields : List (String × Json)} {name : String}
    {value : Option String} :
    (∃ found, decodeField fields name (decodeOption decodeText) = .ok found ∧
      found.getD none = value) ↔ DenotesText? (fields.lookup name) value := by
  unfold decodeField
  cases fields.lookup name with
  | none => cases value <;> simp [DenotesText?]
  | some json => simp [Decoded.map_ok_iff, decodeOptionalText_ok_iff]

end Json

open Json

namespace MemberKind

inductive Denotes : Json → MemberKind → Prop
  | name (kind : MemberKind) : Denotes (.text kind.name) kind
  | variant (kind : MemberKind) : Denotes (.object [(kind.name, .null)]) kind

theorem ofName?_name (kind : MemberKind) : ofName? kind.name = some kind := by
  cases kind <;> decide

theorem ofName?_eq_some_iff {name : String} {kind : MemberKind} :
    ofName? name = some kind ↔ name = kind.name := by
  constructor
  · intro found
    simpa [eq_comm] using List.find?_some found
  · rintro rfl
    exact ofName?_name kind

theorem ofVariant_ok_iff {name : String} {kind : MemberKind} :
    ofVariant name = .ok kind ↔ name = kind.name := by
  rw [← ofName?_eq_some_iff, ofVariant]
  cases ofName? name <;> simp

theorem ofJson_ok_iff {json : Json} {kind : MemberKind} :
    ofJson json = .ok kind ↔ Denotes json kind := by
  constructor
  · intro read
    unfold ofJson at read
    split at read
    · cases ofVariant_ok_iff.mp read
      exact .name kind
    · split at read
      · cases read
      · rename_i known
        cases read
        cases ofVariant_ok_iff.mp known
        exact .variant kind
      · exact absurd read wrongType_ne_ok
    · cases read
    · exact absurd read wrongType_ne_ok
  · rintro (_ | _)
    · exact ofVariant_ok_iff.mpr rfl
    · simp [ofJson, ofVariant_ok_iff.mpr rfl]

end MemberKind

namespace MemberInfo

def fieldNames : List String := ["path", "size", "kind"]

def Fits (info : MemberInfo) : Prop := Signed64 info.size

def Denotes (json : Json) (info : MemberInfo) : Prop :=
  ∃ kind, json.given? fieldNames =
      some [some (.text info.path), some (.integer info.size), some kind] ∧
    Signed64 info.size ∧ MemberKind.Denotes kind info.kind

theorem ofFields_ok_iff {fields : List (String × Json)} {info : MemberInfo} :
    ofFields fields = .ok info ↔ Denotes (.object fields) info := by
  obtain ⟨path, size, kind⟩ := info
  simp only [ofFields, Decoded.bind_ok_iff, Decoded.pure_ok_iff, required_ok_iff, ↓existsAndEq,
    decodeField_some_iff, decodeText_ok_iff, decodeSigned_ok_iff, MemberKind.ofJson_ok_iff]
  simp only [Denotes, given?, fieldNames, List.map_cons, List.map_nil, Option.some.injEq,
    List.cons.injEq]
  grind

theorem ofElements_ok_iff {elements : List Json} {info : MemberInfo} :
    ofElements elements = .ok info ↔ Denotes (.array elements) info := by
  obtain ⟨path, size, kind⟩ := info
  have placed (kind : Json) :
      (Json.array elements).given? fieldNames =
          some [some (.text path), some (.integer size), some kind] ↔
        (elements[0]? = some (.text path) ∧ elements[1]? = some (.integer size) ∧
          elements[2]? = some kind) ∧ elements.length ≤ 3 := by
    simpa [Fin.forall_fin_succ] using
      given?_array_iff fieldNames elements [.text path, .integer size, kind] rfl
  simp only [ofElements, Decoded.bind_ok_iff, Decoded.pure_ok_iff, noMoreThan_ok_iff, ↓existsAndEq,
    decodeElement_ok_iff, decodeText_ok_iff, decodeSigned_ok_iff, MemberKind.ofJson_ok_iff]
  simp only [Denotes, placed]
  grind

theorem ofJson_ok_iff {json : Json} {info : MemberInfo} :
    ofJson json = .ok info ↔ Denotes json info := by
  cases json with
  | object fields => exact ofFields_ok_iff
  | array elements => exact ofElements_ok_iff
  | _ => simp [ofJson, wrongType, Denotes, given?]

theorem denotes_toJson {info : MemberInfo} (fits : info.Fits) : Denotes info.toJson info :=
  ⟨info.kind.toJson, rfl, fits, .name info.kind⟩

theorem roundTrips : RoundTrips fieldNames toJson ofJson Fits Denotes :=
  roundTrips_of_denotes (fun _ _ => ofJson_ok_iff) (fun _ => denotes_toJson)
    (fun _ _ ⟨_, _, fits, _⟩ => fits) (fun _ => rfl)

end MemberInfo

namespace Listing

def fieldNames : List String := ["format", "filters", "entries", "total_size"]

def Fits (listing : Listing) : Prop :=
  Signed64 listing.totalSize ∧ ∀ member ∈ listing.members, member.Fits

def Denotes (json : Json) (listing : Listing) : Prop :=
  ∃ format entries, json.given? fieldNames =
      some [format, some (.array (listing.filters.map .text)), some (.array entries),
        some (.integer listing.totalSize)] ∧
    DenotesText? format listing.format ∧
    List.Forall₂ MemberInfo.Denotes entries listing.members ∧ Signed64 listing.totalSize

theorem decodeMembers_ok_iff {json : Json} {members : List MemberInfo} :
    json.decodeList MemberInfo.ofJson = .ok members ↔
      ∃ entries, json = .array entries ∧ List.Forall₂ MemberInfo.Denotes entries members := by
  simp only [decodeList_ok_iff, MemberInfo.ofJson_ok_iff]

theorem ofFields_ok_iff {fields : List (String × Json)} {listing : Listing} :
    ofFields fields = .ok listing ↔ Denotes (.object fields) listing := by
  obtain ⟨format, filters, members, totalSize⟩ := listing
  have optional := @decodeOptionalField_ok_iff fields "format" format
  simp only [ofFields, Decoded.bind_ok_iff, Decoded.pure_ok_iff, required_ok_iff, ↓existsAndEq,
    decodeField_some_iff, decodeMembers_ok_iff, decodeTexts_ok_iff, decodeSigned_ok_iff, mk.injEq]
  simp only [Denotes, given?, fieldNames, List.map_cons, List.map_nil, Option.some.injEq,
    List.cons.injEq]
  grind

theorem ofElements_ok_iff {elements : List Json} {listing : Listing} :
    ofElements elements = .ok listing ↔ Denotes (.array elements) listing := by
  obtain ⟨format, filters, members, totalSize⟩ := listing
  have placed (format entries : Json) :
      (Json.array elements).given? fieldNames =
          some [some format, some (.array (filters.map .text)), some entries,
            some (.integer totalSize)] ↔
        (elements[0]? = some format ∧ elements[1]? = some (.array (filters.map .text)) ∧
          elements[2]? = some entries ∧ elements[3]? = some (.integer totalSize)) ∧
          elements.length ≤ 4 := by
    simpa [Fin.forall_fin_succ] using given?_array_iff fieldNames elements
      [format, .array (filters.map .text), entries, .integer totalSize] rfl
  have present {first : Option Json} {rest : List (Option Json)}
      (given : (Json.array elements).given? fieldNames = some (first :: rest)) :=
    exists_of_given?_array given
  simp only [ofElements, Decoded.bind_ok_iff, Decoded.pure_ok_iff, noMoreThan_ok_iff, ↓existsAndEq,
    decodeElement_ok_iff, decodeOptionalText_ok_iff, decodeTexts_ok_iff, decodeMembers_ok_iff,
    decodeSigned_ok_iff]
  simp only [Denotes]
  grind

theorem ofJson_ok_iff {json : Json} {listing : Listing} :
    ofJson json = .ok listing ↔ Denotes json listing := by
  cases json with
  | object fields => exact ofFields_ok_iff
  | array elements => exact ofElements_ok_iff
  | _ => simp [ofJson, wrongType, Denotes, given?]

theorem denotesText?_ofOption (value : Option String) :
    DenotesText? (some (Json.ofOption .text value)) value := by
  cases value <;> simp [DenotesText?, Json.ofOption]

theorem denotes_toJson {listing : Listing} (fits : listing.Fits) :
    Denotes listing.toJson listing := by
  refine ⟨_, _, rfl, denotesText?_ofOption listing.format, ?_, fits.1⟩
  rw [List.forall₂_map_left_iff]
  exact List.forall₂_same.mpr fun member among =>
    MemberInfo.denotes_toJson (fits.2 member among)

theorem fits_of_denotes {json : Json} {listing : Listing} (denotes : Denotes json listing) :
    listing.Fits := by
  obtain ⟨_, entries, _, _, all, total⟩ := denotes
  have each : List.Forall₂ (fun member entry => member.Fits ∧ MemberInfo.Denotes entry member)
      listing.members entries :=
    all.flip.imp fun member entry denotes => ⟨MemberInfo.roundTrips.fits entry member
      (MemberInfo.ofJson_ok_iff.mpr denotes), denotes⟩
  exact ⟨total, ((List.forall₂_and_left _ _).mp each).1⟩

theorem roundTrips : RoundTrips fieldNames toJson ofJson Fits Denotes :=
  roundTrips_of_denotes (fun _ _ => ofJson_ok_iff) (fun _ => denotes_toJson)
    (fun _ _ => fits_of_denotes) (fun _ => rfl)

end Listing

namespace Tally

def fieldNames : List String :=
  ["files_written", "directories_created", "entries_skipped", "bytes_written", "duration"]

def inSeconds (tally : Tally) : Tally := { tally with elapsed := ⟨tally.elapsed.seconds, 0⟩ }

@[mk_iff]
structure Counted (tally : Tally) : Prop where
  files : Unsigned64 tally.files
  directories : Unsigned64 tally.directories
  skipped : Unsigned64 tally.skipped
  bytes : Unsigned64 tally.bytes
  seconds : Unsigned64 tally.elapsed.seconds

def Fits (tally : Tally) : Prop := tally.Counted ∧ tally.elapsed.nanoseconds = 0

def Denotes (json : Json) (tally : Tally) : Prop :=
  json.given? fieldNames =
      some [some (.number tally.files), some (.number tally.directories),
        some (.number tally.skipped), some (.number tally.bytes),
        some (.number tally.elapsed.seconds)] ∧ tally.Fits

theorem ofFields_ok_iff {fields : List (String × Json)} {tally : Tally} :
    ofFields fields = .ok tally ↔ Denotes (.object fields) tally := by
  obtain ⟨files, directories, skipped, bytes, seconds, nanoseconds⟩ := tally
  simp only [ofFields, Decoded.bind_ok_iff, Decoded.pure_ok_iff, required_ok_iff, ↓existsAndEq,
    decodeField_some_iff, decodeUnsigned_ok_iff, mk.injEq, Elapsed.mk.injEq]
  simp only [Denotes, Fits, counted_iff, given?, fieldNames, List.map_cons, List.map_nil,
    Option.some.injEq, List.cons.injEq]
  grind

theorem ofElements_ok_iff {elements : List Json} {tally : Tally} :
    ofElements elements = .ok tally ↔ Denotes (.array elements) tally := by
  obtain ⟨files, directories, skipped, bytes, seconds, nanoseconds⟩ := tally
  have placed :
      (Json.array elements).given? fieldNames =
          some [some (.number files), some (.number directories), some (.number skipped),
            some (.number bytes), some (.number seconds)] ↔
        (elements[0]? = some (.number files) ∧ elements[1]? = some (.number directories) ∧
          elements[2]? = some (.number skipped) ∧ elements[3]? = some (.number bytes) ∧
            elements[4]? = some (.number seconds)) ∧ elements.length ≤ 5 := by
    simpa [Fin.forall_fin_succ] using given?_array_iff fieldNames elements
      [.number files, .number directories, .number skipped, .number bytes, .number seconds] rfl
  simp only [ofElements, Decoded.bind_ok_iff, Decoded.pure_ok_iff, noMoreThan_ok_iff, ↓existsAndEq,
    decodeElement_ok_iff, decodeUnsigned_ok_iff, mk.injEq, Elapsed.mk.injEq]
  simp only [Denotes, Fits, counted_iff, placed]
  grind

theorem ofJson_ok_iff {json : Json} {tally : Tally} :
    ofJson json = .ok tally ↔ Denotes json tally := by
  cases json with
  | object fields => exact ofFields_ok_iff
  | array elements => exact ofElements_ok_iff
  | _ => simp [ofJson, wrongType, Denotes, given?]

theorem roundTrips : RoundTrips fieldNames toJson ofJson Fits Denotes :=
  roundTrips_of_denotes (fun _ _ => ofJson_ok_iff) (fun _ fits => ⟨rfl, fits⟩)
    (fun _ _ denotes => denotes.2) (fun _ => rfl)

theorem ofJson_toJson {tally : Tally} (counted : tally.Counted) :
    ofJson tally.toJson = .ok tally.inSeconds :=
  roundTrips.restored tally.inSeconds
    ⟨⟨counted.files, counted.directories, counted.skipped, counted.bytes, counted.seconds⟩, rfl⟩

end Tally

/-- A member, a listing and a tally are read back as they were written, if their numbers are ones of
64 bits and, of a tally, if its time is in whole seconds; of any other tally the fraction is lost
and nothing else. Each is read from its fields by name or by place, and from nothing else; and
whatever it was read from, what is then written is read as the same and written as it is. -/
theorem snapshots_restored :
    RoundTrips MemberInfo.fieldNames MemberInfo.toJson MemberInfo.ofJson MemberInfo.Fits
      MemberInfo.Denotes ∧
    RoundTrips Listing.fieldNames Listing.toJson Listing.ofJson Listing.Fits Listing.Denotes ∧
    RoundTrips Tally.fieldNames Tally.toJson Tally.ofJson Tally.Fits Tally.Denotes ∧
    ∀ tally : Tally, tally.Counted → Tally.ofJson tally.toJson = .ok tally.inSeconds :=
  ⟨MemberInfo.roundTrips, Listing.roundTrips, Tally.roundTrips, fun _ => Tally.ofJson_toJson⟩

/-- A listing as an array, without a format; in it a member with its fields out of order, one that
is none of them, and its kind as an object. The numbers are as low and as high as they can be. -/
theorem scattered_listing_restored :
    let size := -signed64Bound
    let totalSize := signed64Bound - 1
    let listing : Listing :=
      { format := none, filters := ["xz"], members := [⟨"a", size, .directory⟩], totalSize }
    let entry : Json := .object [("kind", .object [("directory", .null)]), ("mode", .integer 0),
      ("size", .integer size), ("path", .text "a")]
    let json : Json := .array [.null, .array [.text "xz"], .array [entry], .integer totalSize]
    let tally : Tally := { bytes := unsigned64Bound - 1, elapsed := ⟨7, 500000000⟩ }
    Listing.ofJson listing.toJson = .ok listing ∧ Listing.ofJson json = .ok listing ∧
      listing.toJson.fieldNames = ["format", "filters", "entries", "total_size"] ∧
      normalized Listing.toJson Listing.ofJson listing.toJson = .ok listing.toJson ∧
      Tally.ofJson tally.toJson = .ok { tally with elapsed := ⟨7, 0⟩ } := by
  intro size totalSize listing entry json tally
  obtain ⟨-, listings, -, tallies⟩ := snapshots_restored
  have member : MemberInfo.Denotes entry ⟨"a", size, .directory⟩ :=
    ⟨_, rfl, by decide, .variant .directory⟩
  have denotes : Listing.Denotes json listing :=
    ⟨_, _, rfl, .inr ⟨rfl, rfl⟩, .cons member .nil, by decide⟩
  have read : Listing.ofJson json = .ok listing := (listings.reads json listing).mpr denotes
  have written : normalized Listing.toJson Listing.ofJson json = .ok listing.toJson := by
    rw [normalized, read]
    rfl
  obtain ⟨named, -, again⟩ := listings.settled json listing.toJson written
  have counted : tally.Counted := ⟨by decide, by decide, by decide, by decide, by decide⟩
  exact ⟨listings.restored listing (listings.fits json listing read), read, named, again,
    tallies tally counted⟩

end ArchiveTraversal
