import ArchiveTraversal.Failure
import ArchiveTraversal.Member

/-!
What a decoder will answer, call by call. A script holds the answers of one decoder; together with
the calls made on it, it determines everything a reader can learn from that decoder.
-/

namespace ArchiveTraversal.Decoder

/-- What the decoder says about its latest call: a text, or failing that a system error number. -/
structure Diagnostic where
  text : Option Bytes := none
  number : Int := 0
  deriving DecidableEq, Repr

/-- The decoder's own words come first, even when empty; the bare code is the last resort. -/
def Diagnostic.reason (diagnostic : Diagnostic) (code : Int) : Reason :=
  match diagnostic.text with
  | some text => .stated (Text.Utf8.decodeLossy text)
  | none =>
      if diagnostic.number = 0 then .status code else .io (.system diagnostic.number)

structure Reply where
  code : Int := 0
  diagnostic : Diagnostic := {}
  deriving DecidableEq, Repr

inductive Serving where
  | raw (count : Int) (bytes : Bytes)
  | content (bytes : Bytes)
  deriving DecidableEq, Repr

structure DataItem where
  serving : Serving
  diagnostic : Diagnostic := {}
  cancels : Bool := false
  deriving DecidableEq, Repr

structure HeaderItem where
  reply : Reply := {}
  header : Option Header := none
  format : Option (Option Bytes) := none
  filters : Option (List (Option Bytes)) := none
  data : List DataItem := []
  skip : Reply := {}
  cancels : Bool := false
  deriving DecidableEq, Repr

structure Script where
  supportFilters : Reply := {}
  supportFormats : Reply := {}
  openFile : Reply := {}
  freeCode : Int := 0
  format : Option Bytes := none
  filters : List (Option Bytes) := []
  filterCount : Option Int := none
  headers : List HeaderItem := []
  deriving DecidableEq, Repr

def DataItem.withoutCancel (item : DataItem) : DataItem := { item with cancels := false }

def HeaderItem.withoutCancel (item : HeaderItem) : HeaderItem :=
  { item with data := item.data.map DataItem.withoutCancel, cancels := false }

/-- The same answers, none of which raises the cancel flag. -/
def Script.withoutCancel (script : Script) : Script :=
  { script with headers := script.headers.map HeaderItem.withoutCancel }

end ArchiveTraversal.Decoder
