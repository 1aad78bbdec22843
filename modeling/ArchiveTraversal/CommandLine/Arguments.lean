import ArchiveTraversal.Number.Unsigned
import ArchiveTraversal.Path

/-!
The arguments of the command line. Options may stand before, between and after the positional
arguments; two dashes end them. An option's value follows it, or is joined to it by an equals sign,
or, after a single dash, directly. Nothing may be given twice, and a path may not be empty. Reading
stops at the first fault or request for help, a value being checked as soon as it is taken; only
what has not been given is noticed at the end.
-/

namespace ArchiveTraversal.CommandLine

inductive Command where
  | list (archive : Path) (json : Bool)
  | print (archive : Path) (member : String)
  | unpack (archive output : Path) (sizeLimit : Option Nat)
  deriving DecidableEq, Repr

inductive Request where
  | run (command : Command)
  | version
  | help
  deriving DecidableEq, Repr

inductive UsageError where
  | missingCommand
  | unknownCommand (name : Bytes)
  | unknownArgument (argument : Bytes)
  | missingArgument (name : String)
  | missingValue (option : String)
  | unwantedValue (option : String)
  | repeated (option : String)
  | invalidValue (option : String) (value : Bytes)
  deriving DecidableEq, Repr

inductive Stop where
  | help
  | usage (error : UsageError)
  deriving DecidableEq, Repr

inductive ValueKind where
  | path
  | text
  | size
  deriving DecidableEq, Repr

structure OptionForm where
  name : String
  letter : Option Char
  value : Option ValueKind
  deriving DecidableEq, Repr

structure PositionalForm where
  name : String
  value : ValueKind
  deriving DecidableEq, Repr

/-- The arguments of one command, sorted but not yet read. -/
structure Sorted where
  options : List (String × Bytes) := []
  positional : List Bytes := []
  deriving DecidableEq, Repr

def ValueKind.accepts (kind : ValueKind) (value : Bytes) : Bool :=
  match kind with
  | .path => value ≠ []
  | .text => (Text.Utf8.decode? value).isSome
  | .size => (Number.readUnsigned? value).isSome

def dash : UInt8 := 0x2D
def equals : UInt8 := 0x3D

def isOption (argument : Bytes) : Bool := argument.head? = some dash && 1 < argument.length

def isLongOption (argument : Bytes) : Bool := argument.take 2 = [dash, dash]

def splitAtEquals : Bytes → Bytes × Option Bytes
  | [] => ([], none)
  | byte :: rest =>
      if byte = equals then ([], some rest)
      else (byte :: (splitAtEquals rest).1, (splitAtEquals rest).2)

def readOption (forms : List OptionForm) (argument : Bytes) :
    Except Stop (OptionForm × Option Bytes) :=
  if isLongOption argument then
    let (name, value) := splitAtEquals (argument.drop 2)
    match forms.find? fun form => Text.Utf8.encode form.name = name with
    | some form => .ok (form, value)
    | none =>
        if name = Text.Utf8.encode "help" ∧ value = none then .error .help
        else .error (.usage (.unknownArgument argument))
  else
    let letter := argument[1]?.map fun byte => Char.ofNat byte.toNat
    let attached := argument.drop 2
    match forms.find? fun form => form.letter.isSome ∧ form.letter = letter with
    | some form =>
        if attached = [] then .ok (form, none)
        else .ok (form, some (if attached.head? = some equals then attached.drop 1 else attached))
    | none =>
        if letter = some 'h' then .error .help else .error (.usage (.unknownArgument argument))

def Sorted.add (sorted : Sorted) (form : OptionForm) (value : Bytes) : Except Stop Sorted :=
  if (sorted.options.lookup form.name).isSome then .error (.usage (.repeated form.name))
  else if form.value.all (·.accepts value) then
    .ok { sorted with options := sorted.options ++ [(form.name, value)] }
  else .error (.usage (.invalidValue form.name value))

def Sorted.addPositional (sorted : Sorted) (forms : List PositionalForm) (argument : Bytes) :
    Except Stop Sorted :=
  match forms[sorted.positional.length]? with
  | none => .error (.usage (.unknownArgument argument))
  | some form =>
      if form.value.accepts argument then
        .ok { sorted with positional := sorted.positional ++ [argument] }
      else .error (.usage (.invalidValue form.name argument))

def sort (forms : List OptionForm) (positional : List PositionalForm) :
    Sorted → List Bytes → Except Stop Sorted
  | sorted, [] => .ok sorted
  | sorted, argument :: rest =>
      if argument = [dash, dash] then
        rest.foldlM (fun sorted argument => sorted.addPositional positional argument) sorted
      else if isOption argument then
        match readOption forms argument, rest with
        | .error stop, _ => .error stop
        | .ok (form, some value), rest =>
            if form.value.isSome then (sorted.add form value).bind (sort forms positional · rest)
            else .error (.usage (.unwantedValue form.name))
        | .ok (form, none), [] =>
            if form.value.isSome then .error (.usage (.missingValue form.name))
            else sorted.add form []
        | .ok (form, none), value :: after =>
            if form.value.isSome then
              if isOption value then .error (.usage (.missingValue form.name))
              else (sorted.add form value).bind (sort forms positional · after)
            else (sorted.add form []).bind (sort forms positional · (value :: after))
      else (sorted.addPositional positional argument).bind (sort forms positional · rest)

def Sorted.at (sorted : Sorted) (index : Nat) (name : String) : Except Stop Bytes :=
  match sorted.positional[index]? with
  | some argument => .ok argument
  | none => .error (.usage (.missingArgument name))

def archiveForm : PositionalForm := ⟨"archive", .path⟩

def listOptions : List OptionForm := [⟨"json", none, none⟩]

def unpackOptions : List OptionForm :=
  [⟨"out", some 'o', some .path⟩, ⟨"size-limit", none, some .size⟩]

def readList (arguments : List Bytes) : Except Stop Command := do
  let sorted ← sort listOptions [archiveForm] {} arguments
  return .list (← sorted.at 0 "archive") (sorted.options.lookup "json").isSome

def readPrint (arguments : List Bytes) : Except Stop Command := do
  let sorted ← sort [] [archiveForm, ⟨"member", .text⟩] {} arguments
  let archive ← sorted.at 0 "archive"
  let member ← sorted.at 1 "member"
  match Text.Utf8.decode? member with
  | some name => return .print archive name
  | none => .error (.usage (.invalidValue "member" member))

def readUnpack (arguments : List Bytes) : Except Stop Command := do
  let sorted ← sort unpackOptions [archiveForm] {} arguments
  let archive ← sorted.at 0 "archive"
  match sorted.options.lookup "out" with
  | none => .error (.usage (.missingArgument "out"))
  | some output =>
      return .unpack archive output ((sorted.options.lookup "size-limit").bind Number.readUnsigned?)

def reader? (name : Bytes) : Option (List Bytes → Except Stop Command) :=
  if name = Text.Utf8.encode "list" then some readList
  else if name = Text.Utf8.encode "cat" then some readPrint
  else if name = Text.Utf8.encode "unpack" then some readUnpack
  else none

def readHelp : List Bytes → Except UsageError Request
  | [] => .ok .help
  | topic :: rest =>
      if (reader? topic).isSome ∨ topic = Text.Utf8.encode "help" then
        match rest with
        | [] => .ok .help
        | next :: _ => .error (.unknownCommand next)
      else .error (.unknownCommand topic)

def readArguments : List Bytes → Except UsageError Request
  | [] => .error .missingCommand
  | first :: rest =>
      if first = Text.Utf8.encode "--version" ∨ first.take 2 = Text.Utf8.encode "-V" then .ok .version
      else if first = Text.Utf8.encode "--help" ∨ first.take 2 = Text.Utf8.encode "-h" then .ok .help
      else if isOption first then .error (.unknownArgument first)
      else if first = Text.Utf8.encode "help" then readHelp rest
      else match reader? first with
        | none => .error (.unknownCommand first)
        | some read =>
            match read rest with
            | .ok command => .ok (.run command)
            | .error .help => .ok .help
            | .error (.usage error) => .error error

end ArchiveTraversal.CommandLine
