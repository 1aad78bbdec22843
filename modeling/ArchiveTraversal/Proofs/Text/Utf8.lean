import ArchiveTraversal.Text.Utf8
import Mathlib.Tactic.SplitIfs

/-!
Encoding undone by decoding. The bytes of one character make one piece, whatever comes after them,
so a text is decoded from its own bytes. A byte of ASCII is among them only for its own character.
-/

namespace ArchiveTraversal

namespace Text.Utf8

theorem lead_of_one {byte : UInt8} (most : byte.toNat < 0x80) :
    lead byte = .character (Char.ofNat byte.toNat) := by
  rw [lead, if_pos (UInt8.lt_iff_toNat_lt.mpr most)]

theorem lead_of_two {first : UInt8} (least : 0xC2 ≤ first.toNat) (most : first.toNat < 0xE0) :
    lead first = .pending ⟨first.toNat - 0xC0, [first], 0x80, 0xBF, 0⟩ := by
  simp only [lead, UInt8.lt_iff_toNat_lt, UInt8.reduceToNat]
  rw [if_neg (by omega), if_neg (by omega), if_pos most]

/-- What the first byte of three begins. The bounds that come with it are those of a second byte
that makes the encoding a shortest one, and of no surrogate. -/
theorem lead_of_three {first second : UInt8} (least : 0xE0 ≤ first.toNat)
    (most : first.toNat < 0xF0) (follows : 0x80 ≤ second.toNat ∧ second.toNat ≤ 0xBF)
    (shortest : first.toNat = 0xE0 → 0xA0 ≤ second.toNat)
    (scalar : first.toNat = 0xED → second.toNat ≤ 0x9F) :
    ∃ low high, lead first = .pending ⟨first.toNat - 0xE0, [first], low, high, 1⟩ ∧
      low ≤ second ∧ second ≤ high := by
  simp only [lead, UInt8.lt_iff_toNat_lt, UInt8.le_iff_toNat_le, ← UInt8.toNat_inj,
    UInt8.reduceToNat]
  rw [if_neg (by omega), if_neg (by omega), if_neg (by omega)]
  split_ifs with lowest surrogates
  · refine ⟨0xA0, 0xBF, ?_, ?_, ?_⟩
    · rw [lowest]
    · exact shortest lowest
    · exact follows.2
  · refine ⟨0x80, 0x9F, ?_, ?_, ?_⟩
    · rw [surrogates]
    · exact follows.1
    · exact scalar surrogates
  · exact ⟨0x80, 0xBF, rfl, follows⟩

/-- The same for the first byte of four, where the upper bound keeps the value a code point. -/
theorem lead_of_four {first second : UInt8} (least : 0xF0 ≤ first.toNat)
    (most : first.toNat < 0xF5) (follows : 0x80 ≤ second.toNat ∧ second.toNat ≤ 0xBF)
    (shortest : first.toNat = 0xF0 → 0x90 ≤ second.toNat)
    (scalar : first.toNat = 0xF4 → second.toNat ≤ 0x8F) :
    ∃ low high, lead first = .pending ⟨first.toNat - 0xF0, [first], low, high, 2⟩ ∧
      low ≤ second ∧ second ≤ high := by
  simp only [lead, UInt8.lt_iff_toNat_lt, UInt8.le_iff_toNat_le, ← UInt8.toNat_inj,
    UInt8.reduceToNat]
  rw [if_neg (by omega), if_neg (by omega), if_neg (by omega), if_neg (by omega), if_neg (by omega),
    if_neg (by omega)]
  split_ifs with lowest middle highest
  · refine ⟨0x90, 0xBF, ?_, ?_, ?_⟩
    · rw [lowest]
    · exact shortest lowest
    · exact follows.2
  · exact ⟨0x80, 0xBF, rfl, follows⟩
  · refine ⟨0x80, 0x8F, ?_, ?_, ?_⟩
    · rw [highest]
    · exact follows.1
    · exact scalar highest
  · omega

section

variable {value owed : Nat} {taken : Bytes} {low high byte : UInt8} {rest : Bytes}

theorem piecesFrom_single (single : byte.toNat < 0x80) :
    piecesFrom none (byte :: rest) =
      .character (Char.ofNat byte.toNat) :: piecesFrom none rest := by
  simp only [piecesFrom, step, start, lead_of_one single, List.singleton_append]

theorem piecesFrom_begins {state : Pending} (begins : lead byte = .pending state) :
    piecesFrom none (byte :: rest) = piecesFrom (some state) rest := by
  simp only [piecesFrom, step, start, begins, List.nil_append]

theorem piecesFrom_goesOn (within : low ≤ byte ∧ byte ≤ high) :
    piecesFrom (some ⟨value, taken, low, high, owed + 1⟩) (byte :: rest) =
      piecesFrom (some ⟨value * 64 + (byte.toNat - 0x80), taken ++ [byte], 0x80, 0xBF, owed⟩)
        rest := by
  simp only [piecesFrom, step, within, and_self, ↓reduceIte, List.nil_append]

theorem piecesFrom_ends (within : low ≤ byte ∧ byte ≤ high) :
    piecesFrom (some ⟨value, taken, low, high, 0⟩) (byte :: rest) =
      .character (Char.ofNat (value * 64 + (byte.toNat - 0x80))) :: piecesFrom none rest := by
  simp only [piecesFrom, step, within, and_self, ↓reduceIte, List.singleton_append]

end

theorem toNat_ofNat_add (value : Nat) {base bound : Nat} (positive : 0 < bound)
    (small : bound + base ≤ 256) :
    (UInt8.ofNat (value % bound + base)).toNat = value % bound + base := by
  have below : value % bound + base < 256 := by
    have := Nat.mod_lt value positive
    omega
  exact UInt8.toNat_ofNat_of_lt' below

/-- A byte that goes on with a character is within the bounds that all but the second have. -/
theorem within_tail {byte : UInt8} {value : Nat} (same : byte.toNat = value % 0x40 + 0x80) :
    0x80 ≤ byte ∧ byte ≤ 0xBF := by
  simp only [UInt8.le_iff_toNat_le, UInt8.reduceToNat]
  omega

theorem piecesFrom_encodeChar (character : Char) (rest : Bytes) :
    piecesFrom none (String.utf8EncodeChar character ++ rest) =
      .character character :: piecesFrom none rest := by
  have valid : character.toNat.isValidChar := character.valid
  have whole : Char.ofNat character.toNat = character := Char.ofNat_toNat character
  have code : character.val.toNat = character.toNat := rfl
  have tail (value : Nat) := @toNat_ofNat_add value 0x80 0x40 (by decide) (by decide)
  simp only [String.utf8EncodeChar, code]
  generalize character.toNat = value at valid whole
  simp only [Nat.isValidChar] at valid
  -- One case for each number of bytes; the value is put together again from what they add to it.
  split_ifs with one two three <;> simp only [List.cons_append, List.nil_append]
  · have single : (UInt8.ofNat value).toNat = value :=
      UInt8.toNat_ofNat_of_lt' (Nat.lt_of_le_of_lt one (by decide))
    rw [piecesFrom_single (by omega), single, whole]
  · have first := @toNat_ofNat_add (value / 64) 0xC0 0x20 (by decide) (by decide)
    have last := tail value
    have begins := @lead_of_two (.ofNat (value / 64 % 0x20 + 0xC0)) (by omega) (by omega)
    have read : (value / 64 % 0x20 + 0xC0 - 0xC0) * 64 + (value % 0x40 + 0x80 - 0x80) = value := by
      omega
    rw [piecesFrom_begins begins, piecesFrom_ends (within_tail last), first, last, read, whole]
  · have first := @toNat_ofNat_add (value / 4096) 0xE0 0x10 (by decide) (by decide)
    have second := tail (value / 64)
    have last := tail value
    obtain ⟨low, high, begins, within⟩ := @lead_of_three
      (.ofNat (value / 4096 % 0x10 + 0xE0)) (.ofNat (value / 64 % 0x40 + 0x80))
      (by omega) (by omega) (by omega) (by omega) (by omega)
    have read : ((value / 4096 % 0x10 + 0xE0 - 0xE0) * 64 +
        (value / 64 % 0x40 + 0x80 - 0x80)) * 64 + (value % 0x40 + 0x80 - 0x80) = value := by omega
    rw [piecesFrom_begins begins, piecesFrom_goesOn within, piecesFrom_ends (within_tail last),
      first, second, last, read, whole]
  · have first := @toNat_ofNat_add (value / 262144) 0xF0 0x08 (by decide) (by decide)
    have second := tail (value / 4096)
    have third := tail (value / 64)
    have last := tail value
    obtain ⟨low, high, begins, within⟩ := @lead_of_four
      (.ofNat (value / 262144 % 0x08 + 0xF0)) (.ofNat (value / 4096 % 0x40 + 0x80))
      (by omega) (by omega) (by omega) (by omega) (by omega)
    have read : (((value / 262144 % 0x08 + 0xF0 - 0xF0) * 64 +
        (value / 4096 % 0x40 + 0x80 - 0x80)) * 64 + (value / 64 % 0x40 + 0x80 - 0x80)) * 64 +
          (value % 0x40 + 0x80 - 0x80) = value := by omega
    rw [piecesFrom_begins begins, piecesFrom_goesOn within, piecesFrom_goesOn (within_tail third),
      piecesFrom_ends (within_tail last), first, second, third, last, read, whole]

theorem pieces_encode (text : String) : pieces (encode text) = text.toList.map .character := by
  unfold pieces encode
  induction text.toList with
  | nil => rfl
  | cons character rest ih =>
      rw [List.flatMap_cons, piecesFrom_encodeChar, ih, List.map_cons]

theorem decode?_encode (text : String) : decode? (encode text) = some text := by
  have all : (text.toList.map Piece.character).mapM Piece.character? = some text.toList := by
    rw [List.mapM_map]
    exact List.mapM_pure.trans (congrArg some (List.map_id text.toList))
  rw [decode?, pieces_encode, all, Option.map_some, String.ofList_toList]

theorem encode_append (text more : String) :
    encode (text ++ more) = encode text ++ encode more := by
  simp only [encode, String.toList_append, List.flatMap_append]

theorem toNat_of_mem_encodeChar {character : Char} {byte : UInt8} (ascii : byte.toNat < 0x80)
    (among : byte ∈ String.utf8EncodeChar character) : character.toNat = byte.toNat := by
  have code : character.val.toNat = character.toNat := rfl
  have tail (value : Nat) := @toNat_ofNat_add value 0x80 0x40 (by decide) (by decide)
  simp only [String.utf8EncodeChar, code] at among
  generalize character.toNat = value at among
  split_ifs at among with one two three <;>
    simp only [List.mem_cons, List.not_mem_nil, or_false] at among
  · rw [among]
    exact (UInt8.toNat_ofNat_of_lt' (Nat.lt_of_le_of_lt one (by decide))).symm
  · have first := @toNat_ofNat_add (value / 64) 0xC0 0x20 (by decide) (by decide)
    rcases among with rfl | rfl <;> grind
  · have first := @toNat_ofNat_add (value / 4096) 0xE0 0x10 (by decide) (by decide)
    rcases among with rfl | rfl | rfl <;> grind
  · have first := @toNat_ofNat_add (value / 262144) 0xF0 0x08 (by decide) (by decide)
    rcases among with rfl | rfl | rfl | rfl <;> grind

end Text.Utf8

end ArchiveTraversal
