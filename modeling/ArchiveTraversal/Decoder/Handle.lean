import ArchiveTraversal.Decoder.Script

/-!
A decoder at work. A handle keeps what is left of its script, the data left of the current member,
and the diagnostic of its latest call. A header is lent: the next request for a header takes it
back, so a borrowed one is good exactly while its serial number is the handle's.
-/

namespace ArchiveTraversal.Decoder

inductive Call where
  | allocate
  | supportFilters
  | supportFormats
  | openFile (blockSize : Nat) (path : Path)
  | nextHeader
  | readData (capacity : Nat)
  | skipData
  | free
  deriving DecidableEq, Repr

/-- A header and the serial number of the request that it answered. -/
structure LentHeader where
  serial : Nat
  header : Header
  deriving DecidableEq, Repr

structure Handle where
  number : Nat
  script : Script
  headers : List HeaderItem
  format : Option Bytes
  filters : List (Option Bytes)
  lent : Option Header := none
  serial : Nat := 0
  data : List DataItem := []
  skip : Reply := {}
  diagnostic : Diagnostic := {}
  deriving DecidableEq, Repr

/-- The answer to a request for a header, and whether it raises the cancel flag. -/
structure HeaderReply where
  code : Int
  lent : Option LentHeader
  cancels : Bool

/-- The answer to a request for data: the count as reported, and the bytes that were filled in. The
two differ in length when a raw count is negative or beyond the capacity. -/
structure DataReply where
  count : Int
  filled : Bytes
  cancels : Bool

namespace Handle

def ofScript (number : Nat) (script : Script) : Handle where
  number := number
  script := script
  headers := script.headers
  format := script.format
  filters := script.filters

def reason (handle : Handle) (code : Int) : Reason := handle.diagnostic.reason code

def answer (handle : Handle) (reply : Reply) : Handle :=
  { handle with diagnostic := reply.diagnostic }

/-- The next header; past the last one, the end of the archive. Data of the member before it is
gone either way. -/
def nextHeader (handle : Handle) : HeaderReply × Handle :=
  let serial := handle.serial + 1
  match handle.headers with
  | [] =>
      (⟨1, none, false⟩,
        { handle with lent := none, serial := serial, data := [], skip := {}, diagnostic := {} })
  | item :: rest =>
      (⟨item.reply.code, item.header.map (LentHeader.mk serial), item.cancels⟩,
        { handle with
          headers := rest
          format := item.format.getD handle.format
          filters := item.filters.getD handle.filters
          lent := item.header
          serial := serial
          data := item.data
          skip := item.skip
          diagnostic := item.reply.diagnostic })

def fit (bytes : Bytes) (count : Nat) : Bytes :=
  let kept := bytes.take count
  kept ++ List.replicate (count - kept.length) 0

theorem length_fit (bytes : Bytes) (count : Nat) : (fit bytes count).length = count := by
  simp only [fit, List.length_append, List.length_take, List.length_replicate]
  omega

/-- Up to a capacity of the current member's data. A call never goes past the end of one piece. -/
def readData (handle : Handle) (capacity : Nat) : DataReply × Handle :=
  match handle.data with
  | [] => (⟨0, [], false⟩, { handle with diagnostic := {} })
  | item :: rest =>
      match item.serving with
      | .raw count bytes =>
          (⟨count, fit bytes (min count.toNat capacity), item.cancels⟩,
            { handle with data := rest, diagnostic := item.diagnostic })
      | .content bytes =>
          let served := bytes.take capacity
          match bytes.drop capacity with
          | [] =>
              (⟨served.length, served, item.cancels⟩,
                { handle with data := rest, diagnostic := item.diagnostic })
          | byte :: left =>
              (⟨served.length, served, false⟩,
                { handle with
                  data := { item with serving := .content (byte :: left) } :: rest
                  diagnostic := {} })

def skipData (handle : Handle) : Int × Handle :=
  (handle.skip.code, { handle with data := [], diagnostic := handle.skip.diagnostic })

def formatName (handle : Handle) : Option String := handle.format.map Text.Utf8.decodeLossy

/-- A count of its own takes the place of the length of the list; below zero it counts as none. -/
def filterCount (handle : Handle) : Nat :=
  match handle.script.filterCount with
  | some count => count.toNat
  | none => handle.filters.length

def filterNames (handle : Handle) : List String :=
  ((handle.filters.take handle.filterCount).filterMap fun name =>
    name.map Text.Utf8.decodeLossy).filter (· ≠ "none")

end Handle

def DataItem.weight (item : DataItem) : Nat :=
  match item.serving with
  | .raw .. => 1
  | .content bytes => bytes.length + 1

def dataWeight : List DataItem → Nat
  | [] => 0
  | item :: rest => item.weight + dataWeight rest

namespace Handle

def weight (handle : Handle) : Nat := dataWeight handle.data

theorem length_readData (handle : Handle) (capacity : Nat) :
    (handle.readData capacity).1.filled.length =
      min (handle.readData capacity).1.count.toNat capacity := by
  cases left : handle.data with
  | nil => simp [readData, left]
  | cons item rest =>
      cases serving : item.serving with
      | raw count bytes => simp only [readData, left, serving, length_fit]
      | content bytes =>
          cases remaining : bytes.drop capacity with
          | nil =>
              simp only [readData, left, serving, remaining, List.length_take, Int.toNat_natCast]
              omega
          | cons byte more =>
              simp only [readData, left, serving, remaining, List.length_take, Int.toNat_natCast]
              omega

theorem readData_weight (handle : Handle) (capacity : Nat)
    (filled : (handle.readData capacity).1.count ≠ 0) :
    (handle.readData capacity).2.weight < handle.weight := by
  cases left : handle.data with
  | nil => simp [readData, left] at filled
  | cons item rest =>
      cases serving : item.serving with
      | raw count bytes => simp [readData, weight, dataWeight, left, serving, DataItem.weight]
      | content bytes =>
          cases remaining : bytes.drop capacity with
          | nil => simp [readData, weight, dataWeight, left, serving, remaining, DataItem.weight]
          | cons byte more =>
              have shorter := congrArg List.length remaining
              simp only [readData, left, serving, remaining] at filled
              simp at shorter filled
              simp [readData, weight, dataWeight, left, serving, remaining, DataItem.weight]
              omega

theorem readData_headers (handle : Handle) (capacity : Nat) :
    (handle.readData capacity).2.headers = handle.headers := by
  unfold readData
  split
  · rfl
  · split
    · rfl
    · dsimp only
      split <;> rfl

end Handle

end ArchiveTraversal.Decoder
