import Legible.Number
import Legible.Proofs.Decimal.Literals

/-!
The characters that numbers are written with.
-/

set_option autoImplicit false

namespace Legible

namespace Decimal

def isNumeric (c : Char) : Bool :=
  c.isDigit || c = '-' || c = '+' || c = '.' || c = 'e'

theorem isDigit_of_mem_digits {n : Nat} {c : Char} (member : c ∈ digits n) : c.isDigit :=
  Nat.isDigit_of_mem_toDigits (by decide) (by decide) member

theorem digits_ne_nil (n : Nat) : digits n ≠ [] :=
  Nat.toDigits_ne_nil

theorem numeric_of_all {text : List Char} (all : text.all isNumeric) : ∀ c ∈ text, isNumeric c :=
  List.all_eq_true.1 all

theorem isNumeric_of_isDigit {c : Char} (digit : c.isDigit) : isNumeric c := by
  simp [isNumeric, digit]

theorem ofInt_numeric (n : Int) : ∀ c ∈ (ofInt n).toList, c = '-' ∨ c.isDigit := by
  intro c member
  cases n with
  | ofNat n =>
    rw [ofInt, String.toList_ofList] at member
    exact .inr (isDigit_of_mem_digits member)
  | negSucc n =>
    simp only [ofInt, String.toList_append, String.toList_ofList, List.mem_append] at member
    exact member.imp List.mem_singleton.1 isDigit_of_mem_digits

theorem isNumeric_of_mem_ofInt {n : Int} {c : Char} (member : c ∈ (ofInt n).toList) :
    isNumeric c := by
  rcases ofInt_numeric n c member with rfl | digit
  · decide
  · exact isNumeric_of_isDigit digit

theorem dropTrailingZeros_subset (digits : List Char) : dropTrailingZeros digits ⊆ digits := by
  intro c member
  simp only [dropTrailingZeros, List.mem_reverse] at member
  simpa using List.dropWhile_subset _ member

theorem all_positional {digits : List Char} (numeric : ∀ c ∈ digits, isNumeric c) (point : Int) :
    ∀ c ∈ positional digits point, isNumeric c := by
  have zeros : ∀ count, ∀ c ∈ List.replicate count '0', isNumeric c := by
    intro count c member
    obtain rfl := List.eq_of_mem_replicate member
    decide
  unfold positional
  split
  · rw [List.forall_mem_append, List.forall_mem_append]
    exact ⟨⟨numeric_of_all (by decide), zeros _⟩, numeric⟩
  · split
    · rw [List.forall_mem_append, List.forall_mem_append]
      exact ⟨⟨numeric, zeros _⟩, numeric_of_all (by decide)⟩
    · rw [List.forall_mem_append, List.forall_mem_cons]
      exact ⟨fun c member => numeric c (List.mem_of_mem_take member), by decide,
        fun c member => numeric c (List.mem_of_mem_drop member)⟩

theorem all_mantissa (bare : Bare) {digits : List Char} (numeric : ∀ c ∈ digits, isNumeric c) :
    ∀ c ∈ mantissa bare digits, isNumeric c := by
  unfold mantissa
  split
  · exact numeric
  · split
    · exact numeric
    · rw [List.forall_mem_cons] at numeric ⊢
      exact ⟨numeric.1, numeric_of_all (by decide)⟩
  · rw [List.forall_mem_cons] at numeric ⊢
    rw [List.forall_mem_cons]
    exact ⟨numeric.1, by decide, numeric.2⟩

theorem all_scientific (bare : Bare) (s : Scientific) : ∀ c ∈ s.text bare, isNumeric c := by
  have kept : ∀ c ∈ dropTrailingZeros (digits s.significand), isNumeric c := fun c member =>
    isNumeric_of_isDigit (isDigit_of_mem_digits (dropTrailingZeros_subset _ member))
  simp only [Scientific.text]
  split
  · exact numeric_of_all (by decide)
  · split
    · exact all_positional kept _
    · rw [List.forall_mem_append, List.forall_mem_cons]
      exact ⟨all_mantissa bare kept, by decide, fun c => isNumeric_of_mem_ofInt⟩

theorem Binary64.all_text (bare : Bare) (x : Binary64) :
    ∀ c ∈ (x.text bare).toList, isNumeric c := by
  simp only [Binary64.text, String.toList_append, String.toList_ofList, List.forall_mem_append]
  refine ⟨?_, all_scientific bare _⟩
  split <;> exact numeric_of_all (by decide)

namespace Numeral

theorem Spelled.all_spelling {literal : Numeral} {text : List Char}
    (spelled : Spelled literal text) : ∀ c ∈ literal.spelling.toList, isNumeric c := by
  have digits : ∀ {digits : List Char}, IsDigits digits → ∀ c ∈ digits, isNumeric c :=
    fun isDigits c member => isNumeric_of_isDigit (isDigits.2 c member)
  obtain ⟨isWhole, fraction, exponent⟩ := spelled
  simp only [spelling, String.toList_ofList, List.forall_mem_append]
  refine ⟨⟨⟨?_, digits isWhole.isDigits⟩, ?_⟩, ?_⟩
  · split <;> exact numeric_of_all (by decide)
  · cases fraction with
    | none => exact fun c member => absurd member List.not_mem_nil
    | some isDigits =>
      rw [List.forall_mem_cons]
      exact ⟨by decide, digits isDigits⟩
  · cases exponent with
    | none => exact fun c member => absurd member List.not_mem_nil
    | some mark sign isDigits =>
      simp only [List.forall_mem_cons]
      refine ⟨by decide, ?_, digits isDigits⟩
      split <;> decide

end Numeral

end Decimal

namespace Number

def IsDecoded (value : Number) : Prop :=
  ∃ text literal, Decimal.Numeral.ofText? text = some literal ∧ value = ofNumeral literal

/-- A number that is no value is the spelling of the literal it was decoded from. -/
theorem IsDecoded.exists_spelling {spelling : String} (decoded : IsDecoded (.beyond spelling)) :
    ∃ text literal, Decimal.Numeral.ofText? text = some literal ∧ literal.spelling = spelling := by
  obtain ⟨text, literal, read, value⟩ := decoded
  refine ⟨text, literal, read, ?_⟩
  unfold ofNumeral at value
  split at value
  · split at value
    · cases value
    · exact (Number.beyond.inj value).symm
  · split at value
    · cases value
    · exact (Number.beyond.inj value).symm

theorem IsDecoded.all_spelling {spelling : String} (decoded : IsDecoded (.beyond spelling)) :
    ∀ c ∈ spelling.toList, Decimal.isNumeric c := by
  obtain ⟨text, literal, read, rfl⟩ := decoded.exists_spelling
  exact (Decimal.Numeral.ofText?_eq_some_iff_spelled.1 read).all_spelling

theorem IsDecoded.all_literal {value : Number} (decoded : value.IsDecoded) :
    ∀ c ∈ value.literal.toList, Decimal.isNumeric c := by
  cases value with
  | integer => exact fun c => Decimal.isNumeric_of_mem_ofInt
  | float value => exact value.all_text .pointed
  | beyond => exact decoded.all_spelling

theorem IsDecoded.all_text {value : Number} (decoded : value.IsDecoded) :
    ∀ c ∈ value.text.toList, Decimal.isNumeric c := by
  cases value with
  | integer => exact fun c => Decimal.isNumeric_of_mem_ofInt
  | float value => exact value.all_text .plain
  | beyond => exact decoded.all_spelling

end Number

end Legible
