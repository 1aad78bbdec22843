import ArchiveTraversal.CommandLine.Pattern.Form
import ArchiveTraversal.Event
import ArchiveTraversal.Number.Unsigned

/-!
Which events reach the log. A filter is a list of directives between commas; a directive gives a
level to the events whose target begins with a name and that have a field, or to all where it names
neither. The directive that says most about an event decides, a later one takes the place of an
equal one before it, and what no directive covers is not logged.
-/

namespace ArchiveTraversal.CommandLine

/-- The part of the program that an event comes from. -/
def target : Event → String
  | .memberSkipped .. | .memberBlocked .. | .fileReplaced .. | .memberWritten .. =>
      "archive_stream::unpack"
  | .memberPrinted .. | .unpacked .. => "arcstream"
  | _ => "archive_stream::reader"

/-- The events of a target that a directive is about. Those within spans are none, because the
program opens no span. -/
inductive Scope where
  | all
  | withField (name : String)
  | withinSpans
  deriving DecidableEq, Repr

/-- Events up to a rank are logged; at zero none are. -/
structure Directive where
  target : Bytes
  scope : Scope
  rank : Nat
  deriving DecidableEq, Repr

abbrev LogFilter := List Directive

namespace Directive

def forAll (level : Level) : Directive := ⟨[], .all, level.rank⟩

def ranks : List (String × Nat) :=
  [("off", 0), ("error", 1), ("warn", 2), ("info", 3), ("debug", 4), ("trace", 5)]

def rank? (text : Bytes) : Option Nat :=
  match Number.readUnsigned? text with
  | some rank => if rank ≤ Level.trace.rank then some rank else none
  | none => do ranks.lookup (String.ofList ((← Text.Utf8.decode? text).toList.map Char.toLower))

/-- A level left out after the sign lets everything through. -/
def rankAfterSign? (text : Bytes) : Option Nat :=
  if text = [] then some Level.trace.rank else rank? text

/-- The rest of a directive. Marks are looked for ahead, without the blanks around the directive,
but parts are cut at the same distances out of the text with its blanks. -/
structure Reading where
  ahead : List Char
  text : Bytes

namespace Reading

def ofPiece (piece : List Char) : Reading :=
  ⟨Text.Blank.trim piece, Text.Utf8.encode (String.ofList piece)⟩

def afterMark (reading : Reading) : Reading := ⟨reading.ahead.drop 1, reading.text.drop 1⟩

def cut? (marks : List Char) (reading : Reading) : Option (Bytes × Char × Reading) :=
  let name := reading.ahead.takeWhile (· ∉ marks)
  let size := (Text.Utf8.encode (String.ofList name)).length
  match reading.ahead.drop name.length with
  | [] => none
  | mark :: ahead => some (reading.text.take size, mark, ⟨ahead, reading.text.drop (size + 1)⟩)

def lastRank? (reading : Reading) : Option Nat :=
  match reading.ahead with
  | [] => some Level.trace.rank
  | '=' :: _ => rankAfterSign? (reading.text.drop 1)
  | _ => none

end Reading

def isDigits (text : List Char) : Bool := text ≠ [] && text.all Char.isDigit

def isDecimal (text : List Char) : Bool :=
  let digits := text.filter (· ≠ '.')
  isDigits digits && text.length ≤ digits.length + 1

def isExponent : List Char → Bool
  | '+' :: digits | '-' :: digits => isDigits digits
  | digits => isDigits digits

/-- A number after its sign: a decimal, perhaps with an exponent, or a name of no finite number. -/
def isNumber (text : List Char) : Bool :=
  let text := text.map Char.toLower
  let mantissa := text.takeWhile (· ≠ 'e')
  match String.ofList text with
  | "inf" | "infinity" | "nan" => true
  | _ => isDecimal mantissa && (text = mantissa || isExponent (text.drop (mantissa.length + 1)))

/-- A value is a pattern or a number. All numbers but those with a plus sign are patterns too. -/
def isValue (text : List Char) : Bool :=
  Pattern.accepts text || (text.head? = some '+' && isNumber (text.drop 1))

/-- The scope that a field gives. A value can only be held against the fields of spans. -/
def fieldScope? (field : Bytes) : Option Scope := do
  let text := (← Text.Utf8.decode? field).toList
  let name := text.takeWhile (· ≠ '=')
  match text.drop name.length with
  | [] => some (.withField (String.ofList name))
  | _ :: value => if isValue (value.takeWhile (· ≠ '=')) then some .withinSpans else none

/-- The rest of a directive after an opening bracket: the name of a span, a field between braces, or
both. -/
def ofSpan? (target : Bytes) (reading : Reading) : Option Directive := do
  let (span, mark, rest) ← reading.cut? [']', '\x7b']
  if mark = ']' then return ⟨target, .withinSpans, ← rest.lastRank?⟩
  let (field, _, rest) ← rest.cut? ['\x7d']
  if field = [] ∨ rest.ahead.head? ≠ some ']' then none
  let scope ← fieldScope? field
  return ⟨target, if span = [] then scope else .withinSpans, ← rest.afterMark.lastRank?⟩

def isNameStart (value : Char) : Bool :=
  value ∈ ['-', ':', '_'] || Text.Alphanumeric.contains value

/-- A directive that is not just a level starts with the name of a target or with a span. Without a
level it lets everything through. -/
def ofPiece? (piece : List Char) : Option Directive := do
  let reading := Reading.ofPiece piece
  let first ← reading.ahead.head?
  if first = '[' then ofSpan? [] reading.afterMark
  else if !isNameStart first then none
  else match reading.cut? ['=', '['] with
    | none => return match rank? reading.text with
        | some rank => ⟨[], .all, rank⟩
        | none => ⟨reading.text, .all, Level.trace.rank⟩
    | some (target, '=', rest) => return ⟨target, .all, ← rankAfterSign? rest.text⟩
    | some (target, _, rest) => ofSpan? target rest

def covers (directive : Directive) (event : Event) : Bool :=
  directive.target.isPrefixOf (Text.Utf8.encode (CommandLine.target event)) &&
    match directive.scope with
    | .all => true
    | .withField name =>
        name = "message" || (event.fields.lookup name).isSome
    | .withinSpans => false

def fieldName? (directive : Directive) : Option String :=
  match directive.scope with
  | .withField name => some name
  | _ => none

/-- Whether another directive for the same event says as much: a longer target does, then one more
field, then the field that is later in order. -/
def yields (directive other : Directive) : Bool :=
  if directive.target.length ≠ other.target.length then
    directive.target.length < other.target.length
  else match directive.fieldName?, other.fieldName? with
    | none, _ => true
    | some _, none => false
    | some name, some next => decide (name ≤ next)

end Directive

namespace LogFilter

def standard : LogFilter := [.forAll .info]

def parts : List Char → List (List Char)
  | [] => [[]]
  | value :: rest =>
      if value = ',' then [] :: parts rest
      else match parts rest with
        | [] => [[value]]
        | first :: others => (value :: first) :: others

def parse? (text : String) : Option LogFilter :=
  match (parts text.toList).filter (· ≠ []) with
  | [] => some [.forAll .error]
  | pieces => pieces.mapM Directive.ofPiece?

/-- A text that is no filter is as good as none. -/
def ofSetting : Option String → LogFilter
  | none => standard
  | some text => (parse? text).getD standard

def prefer (event : Event) (best : Option Directive) (next : Directive) : Option Directive :=
  if next.covers event ∧ best.all (·.yields next) then some next else best

def admits (filter : LogFilter) (event : Event) : Bool :=
  (filter.foldl (prefer event) none).any fun directive => event.level.rank ≤ directive.rank

end LogFilter

/-- Controls that a terminal would act on, made harmless. -/
def defuse (value : Char) : List Char :=
  if value = '\x1b' then "\\x1b".toList
  else if value = '\x07' then "\\x07".toList
  else if value = '\x08' then "\\x08".toList
  else if value = '\x0c' then "\\x0c".toList
  else if value = '\x7f' then "\\x7f".toList
  else if 0x80 ≤ value.toNat ∧ value.toNat ≤ 0x9F then
    "\\u\x7b".toList ++ Nat.toDigits 16 value.toNat ++ "\x7d".toList
  else [value]

def logLine (event : Event) : String :=
  event.level.name ++ " " ++ target event ++ ": " ++
    String.ofList (event.message.toList.flatMap defuse) ++
    String.join (event.fields.map fun field => " " ++ field.1 ++ "=" ++ field.2.render)

end ArchiveTraversal.CommandLine
