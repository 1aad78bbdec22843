/-!
UTF-8 as bytes and as characters. Decoding never fails: it cuts the bytes into pieces, each one a
character or a maximal run that begins a character and does not finish it. Reading a text lossily
puts one replacement character in the place of every broken piece.
-/

namespace ArchiveTraversal

abbrev Bytes := List UInt8

namespace Text.Utf8

inductive Piece where
  | character (value : Char)
  | broken (bytes : Bytes)
  deriving DecidableEq, Repr

/-- A character under way: its value so far, the bytes it has taken, the range its next byte
must lie in, and how many bytes it needs after that one. -/
structure Pending where
  value : Nat
  taken : Bytes
  low : UInt8
  high : UInt8
  owed : Nat
  deriving DecidableEq, Repr

inductive Lead where
  | character (value : Char)
  | pending (state : Pending)
  | invalid
  deriving DecidableEq, Repr

def lead (byte : UInt8) : Lead :=
  if byte < 0x80 then .character (Char.ofNat byte.toNat)
  else if byte < 0xC2 then .invalid
  else if byte < 0xE0 then .pending ⟨byte.toNat - 0xC0, [byte], 0x80, 0xBF, 0⟩
  else if byte = 0xE0 then .pending ⟨0, [byte], 0xA0, 0xBF, 1⟩
  else if byte = 0xED then .pending ⟨0xD, [byte], 0x80, 0x9F, 1⟩
  else if byte < 0xF0 then .pending ⟨byte.toNat - 0xE0, [byte], 0x80, 0xBF, 1⟩
  else if byte = 0xF0 then .pending ⟨0, [byte], 0x90, 0xBF, 2⟩
  else if byte < 0xF4 then .pending ⟨byte.toNat - 0xF0, [byte], 0x80, 0xBF, 2⟩
  else if byte = 0xF4 then .pending ⟨4, [byte], 0x80, 0x8F, 2⟩
  else .invalid

def start (byte : UInt8) : List Piece × Option Pending :=
  match lead byte with
  | .character value => ([.character value], none)
  | .pending state => ([], some state)
  | .invalid => ([.broken [byte]], none)

def step : Option Pending → UInt8 → List Piece × Option Pending
  | none, byte => start byte
  | some state, byte =>
      if state.low ≤ byte ∧ byte ≤ state.high then
        let value := state.value * 64 + (byte.toNat - 0x80)
        match state.owed with
        | 0 => ([.character (Char.ofNat value)], none)
        | owed + 1 => ([], some ⟨value, state.taken ++ [byte], 0x80, 0xBF, owed⟩)
      else
        -- The byte that breaks a character off may itself begin the next one.
        (.broken state.taken :: (start byte).1, (start byte).2)

def piecesFrom : Option Pending → Bytes → List Piece
  | none, [] => []
  | some state, [] => [.broken state.taken]
  | state, byte :: rest => (step state byte).1 ++ piecesFrom (step state byte).2 rest

def pieces (bytes : Bytes) : List Piece := piecesFrom none bytes

def Piece.lossy : Piece → Char
  | .character value => value
  | .broken _ => '\uFFFD'

def decodeLossy (bytes : Bytes) : String := String.ofList ((pieces bytes).map Piece.lossy)

def Piece.character? : Piece → Option Char
  | .character value => some value
  | .broken _ => none

/-- The text the bytes hold when every piece of them is a character. -/
def decode? (bytes : Bytes) : Option String :=
  ((pieces bytes).mapM Piece.character?).map String.ofList

def encode (text : String) : Bytes := text.toList.flatMap String.utf8EncodeChar

end Text.Utf8

end ArchiveTraversal
