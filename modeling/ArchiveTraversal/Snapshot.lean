import ArchiveTraversal.Json.Decode
import ArchiveTraversal.Unpack

/-!
Snapshots as JSON: the kind of a member, a member, a listing, and the tally of an unpack. Encoding
gives an object with the fields in a fixed order; a duration is cut to whole seconds. Decoding also
takes the fields in any order or as an array, and reads a missing format as none.
-/

namespace ArchiveTraversal

namespace MemberKind

def toJson (kind : MemberKind) : Json := .text kind.name

def all : List MemberKind := [.file, .directory, .symlink, .other]

def ofName? (name : String) : Option MemberKind := all.find? fun kind => kind.name = name

def ofVariant (name : String) : Decoded MemberKind :=
  match ofName? name with
  | some kind => .ok kind
  | none => .error (.unknownVariant name (all.map MemberKind.name))

/-- A kind is its name, or an object that has the name for its only field and nothing in it. -/
def ofJson : Json → Decoded MemberKind
  | .text name => ofVariant name
  | .object [(name, content)] =>
      match ofVariant name, content with
      | .error error, _ => .error error
      | .ok kind, .null => .ok kind
      | .ok _, content => content.wrongType "unit"
  | .object fields => .error (.invalidValue (Json.object fields).describe "map with a single key")
  | value => value.wrongType "string or map"

end MemberKind

namespace MemberInfo

def toJson (info : MemberInfo) : Json :=
  .object [("path", .text info.path), ("size", .integer info.size), ("kind", info.kind.toJson)]

def ofFields (fields : List (String × Json)) : Decoded MemberInfo := do
  let kind ← Json.decodeField fields "kind" MemberKind.ofJson
  let path ← Json.decodeField fields "path" Json.decodeText
  let size ← Json.decodeField fields "size" Json.decodeSigned
  return ⟨← Json.required "path" path, ← Json.required "size" size, ← Json.required "kind" kind⟩

def ofElements (elements : List Json) : Decoded MemberInfo := do
  let expected := "struct EntryInfo with 3 elements"
  let path ← Json.decodeElement elements 0 expected Json.decodeText
  let size ← Json.decodeElement elements 1 expected Json.decodeSigned
  let kind ← Json.decodeElement elements 2 expected MemberKind.ofJson
  Json.noMoreThan elements 3
  return ⟨path, size, kind⟩

def ofJson : Json → Decoded MemberInfo
  | .object fields => ofFields fields
  | .array elements => ofElements elements
  | value => value.wrongType "struct EntryInfo"

end MemberInfo

namespace Listing

def toJson (listing : Listing) : Json :=
  .object [("format", Json.ofOption .text listing.format),
    ("filters", .array (listing.filters.map .text)),
    ("entries", .array (listing.members.map MemberInfo.toJson)),
    ("total_size", .integer listing.totalSize)]

def ofFields (fields : List (String × Json)) : Decoded Listing := do
  let members ← Json.decodeField fields "entries" (Json.decodeList MemberInfo.ofJson)
  let filters ← Json.decodeField fields "filters" (Json.decodeList Json.decodeText)
  let format ← Json.decodeField fields "format" (Json.decodeOption Json.decodeText)
  let totalSize ← Json.decodeField fields "total_size" Json.decodeSigned
  return ⟨format.getD none, ← Json.required "filters" filters,
    ← Json.required "entries" members, ← Json.required "total_size" totalSize⟩

def ofElements (elements : List Json) : Decoded Listing := do
  let expected := "struct ArchiveSummary with 4 elements"
  let format ← Json.decodeElement elements 0 expected (Json.decodeOption Json.decodeText)
  let filters ← Json.decodeElement elements 1 expected (Json.decodeList Json.decodeText)
  let members ← Json.decodeElement elements 2 expected (Json.decodeList MemberInfo.ofJson)
  let totalSize ← Json.decodeElement elements 3 expected Json.decodeSigned
  Json.noMoreThan elements 4
  return ⟨format, filters, members, totalSize⟩

def ofJson : Json → Decoded Listing
  | .object fields => ofFields fields
  | .array elements => ofElements elements
  | value => value.wrongType "struct ArchiveSummary"

end Listing

namespace Tally

def toJson (tally : Tally) : Json :=
  .object [("files_written", .number tally.files),
    ("directories_created", .number tally.directories),
    ("entries_skipped", .number tally.skipped),
    ("bytes_written", .number tally.bytes),
    ("duration", .number tally.elapsed.seconds)]

def ofFields (fields : List (String × Json)) : Decoded Tally := do
  let bytes ← Json.decodeField fields "bytes_written" Json.decodeUnsigned
  let directories ← Json.decodeField fields "directories_created" Json.decodeUnsigned
  let seconds ← Json.decodeField fields "duration" Json.decodeUnsigned
  let skipped ← Json.decodeField fields "entries_skipped" Json.decodeUnsigned
  let files ← Json.decodeField fields "files_written" Json.decodeUnsigned
  return ⟨← Json.required "files_written" files,
    ← Json.required "directories_created" directories,
    ← Json.required "entries_skipped" skipped, ← Json.required "bytes_written" bytes,
    ⟨← Json.required "duration" seconds, 0⟩⟩

def ofElements (elements : List Json) : Decoded Tally := do
  let expected := "struct UnpackStats with 5 elements"
  let files ← Json.decodeElement elements 0 expected Json.decodeUnsigned
  let directories ← Json.decodeElement elements 1 expected Json.decodeUnsigned
  let skipped ← Json.decodeElement elements 2 expected Json.decodeUnsigned
  let bytes ← Json.decodeElement elements 3 expected Json.decodeUnsigned
  let seconds ← Json.decodeElement elements 4 expected Json.decodeUnsigned
  Json.noMoreThan elements 5
  return ⟨files, directories, skipped, bytes, ⟨seconds, 0⟩⟩

def ofJson : Json → Decoded Tally
  | .object fields => ofFields fields
  | .array elements => ofElements elements
  | value => value.wrongType "struct UnpackStats"

end Tally

end ArchiveTraversal
