import ArchiveTraversal.Json.Decode
import Mathlib.Data.Fin.Tuple.Basic
import Mathlib.Data.List.Forall2

/-!
What each reading accepts, and what it makes of it: a reading succeeds with a value just if the
JSON value stands for that value. The fields of a record are taken from an object by their names,
where their order and other fields do not matter, or from an array by their places.
-/

namespace ArchiveTraversal

namespace Decoded

variable {First Value : Type} {first : Decoded First} {value : Value}

theorem bind_ok_iff {rest : First → Decoded Value} :
    first >>= rest = .ok value ↔ ∃ between, first = .ok between ∧ rest between = .ok value := by
  cases first <;> simp [bind, Except.bind]

theorem map_ok_iff {change : First → Value} :
    first.map change = .ok value ↔ ∃ between, first = .ok between ∧ change between = value := by
  cases first <;> simp [Except.map]

theorem pure_ok_iff {other : Value} : (pure other : Decoded Value) = .ok value ↔ other = value := by
  simp [pure, Except.pure]

end Decoded

namespace Json

variable {Value : Type} {decode : Json → Decoded Value} {json : Json} {value : Value}

def Signed64 (value : Int) : Prop := -signed64Bound ≤ value ∧ value < signed64Bound

instance (value : Int) : Decidable (Signed64 value) := inferInstanceAs (Decidable (_ ∧ _))

def Unsigned64 (value : Nat) : Prop := value < unsigned64Bound

instance (value : Nat) : Decidable (Unsigned64 value) := inferInstanceAs (Decidable (_ < _))

theorem decodeSigned_ok_iff {value : Int} :
    json.decodeSigned = .ok value ↔ json = .integer value ∧ Signed64 value := by
  cases json with
  | integer other =>
      simp only [decodeSigned, decodeWithin, integer.injEq, Signed64]
      split
      · simp only [Except.ok.injEq]
        grind
      · simp only [reduceCtorEq, false_iff]
        grind
  | _ => simp [decodeSigned, decodeWithin, wrongType]

theorem decodeUnsigned_ok_iff {value : Nat} :
    json.decodeUnsigned = .ok value ↔ json = .number value ∧ Unsigned64 value := by
  cases json with
  | integer other =>
      simp only [decodeUnsigned, decodeWithin, number, integer.injEq, Unsigned64]
      split
      · simp only [Except.map, Except.ok.injEq]
        omega
      · simp only [Except.map, reduceCtorEq, false_iff]
        omega
  | _ => simp [decodeUnsigned, decodeWithin, wrongType, Except.map, number]

theorem wrongType_ne_ok {expected : String} : json.wrongType expected ≠ Except.ok value := by
  simp [wrongType]

theorem decodeText_ok_iff {value : String} : json.decodeText = .ok value ↔ json = .text value := by
  cases json <;> simp [decodeText, wrongType]

theorem decodeEach_ok_iff {elements : List Json} {values : List Value} :
    decodeEach decode elements = .ok values ↔
      List.Forall₂ (fun element value => decode element = .ok value) elements values := by
  induction elements generalizing values with
  | nil => cases values <;> simp [decodeEach]
  | cons element rest ih =>
      rw [List.forall₂_cons_left_iff]
      cases read : decode element with
      | error error => simp [decodeEach, read]
      | ok value =>
          simp only [decodeEach, read, Decoded.map_ok_iff, ih, Except.ok.injEq]
          constructor
          · rintro ⟨others, all, rfl⟩
            exact ⟨value, others, rfl, all, rfl⟩
          · rintro ⟨_, others, rfl, all, rfl⟩
            exact ⟨others, all, rfl⟩

theorem decodeList_ok_iff {values : List Value} :
    json.decodeList decode = .ok values ↔ ∃ elements, json = .array elements ∧
      List.Forall₂ (fun element value => decode element = .ok value) elements values := by
  cases json <;> simp [decodeList, wrongType, decodeEach_ok_iff]

theorem decodeOption_ok_iff {found : Option Value} :
    json.decodeOption decode = .ok found ↔
      json = .null ∧ found = none ∨
        json ≠ .null ∧ ∃ value, decode json = .ok value ∧ some value = found := by
  cases json with
  | null => cases found <;> simp [decodeOption]
  | _ => simp [decodeOption, Decoded.map_ok_iff]

section

variable {fields : List (String × Json)} {name : String}

theorem decodeField_some_iff :
    decodeField fields name decode = .ok (some value) ↔
      ∃ field, fields.lookup name = some field ∧ decode field = .ok value := by
  unfold decodeField
  cases fields.lookup name with
  | none => simp
  | some field => simp [Decoded.map_ok_iff]

theorem required_ok_iff {found : Option Value} :
    required name found = .ok value ↔ found = some value := by
  cases found <;> simp [required]

end

section

variable {elements : List Json}

theorem decodeElement_ok_iff {index : Nat} {expected : String} :
    decodeElement elements index expected decode = .ok value ↔
      ∃ element, elements[index]? = some element ∧ decode element = .ok value := by
  unfold decodeElement
  cases elements[index]? <;> simp

theorem noMoreThan_ok_iff {count : Nat} {done : Unit} :
    noMoreThan elements count = .ok done ↔ elements.length ≤ count := by
  simp [noMoreThan]

end

/-- What a record's fields are given, in the order of their names: what stands under each name in an
object, where it may be missing, or the elements of an array that has as many. -/
def given? (names : List String) : Json → Option (List (Option Json))
  | .object fields => some (names.map fun name => fields.lookup name)
  | .array elements =>
      if elements.length = names.length then some (elements.map some) else none
  | _ => none

section

variable {names : List String} {elements : List Json}

theorem given?_array_eq_some_iff {given : List (Option Json)} :
    (Json.array elements).given? names = some given ↔
      elements.length = names.length ∧ elements.map some = given := by
  simp [given?]

theorem exists_of_given?_array {first : Option Json} {rest : List (Option Json)}
    (given : (Json.array elements).given? names = some (first :: rest)) :
    ∃ element, first = some element := by
  obtain ⟨_, all⟩ := given?_array_eq_some_iff.mp given
  obtain ⟨element, _, _, same, _⟩ := List.map_eq_cons_iff.mp all
  exact ⟨element, same.symm⟩

theorem given?_array_iff (names : List String) (elements values : List Json)
    (count : values.length = names.length) :
    (Json.array elements).given? names = some (values.map some) ↔
      (∀ index : Fin values.length, elements[index]? = some values[index]) ∧
        elements.length ≤ values.length := by
  constructor
  · intro given
    obtain ⟨_, all⟩ := given?_array_eq_some_iff.mp given
    cases List.map_injective_iff.mpr (Option.some_injective Json) all
    exact ⟨by simp, le_rfl⟩
  · rintro ⟨same, short⟩
    have all : elements = values := by
      apply List.ext_getElem?
      intro index
      by_cases within : index < values.length
      · exact (same ⟨index, within⟩).trans (List.getElem?_eq_getElem within).symm
      · rw [List.getElem?_eq_none (by omega), List.getElem?_eq_none (by omega)]
    exact given?_array_eq_some_iff.mpr ⟨by rw [all, count], by rw [all]⟩

end

end Json

end ArchiveTraversal
