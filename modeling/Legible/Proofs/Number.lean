import Legible.Proofs.Decimal.Pointed
import Legible.Proofs.Decimal.Rounding

/-!
Which literals stand for which kind of number.

A literal without fraction and exponent is an integer, and any other one is the double nearest to
its exact value, if there is one. Both kinds can be beyond what a number holds, and are then kept as
they are spelled.
-/

set_option autoImplicit false

namespace Legible

namespace Decimal.Numeral

def IsInteger (literal : Numeral) : Prop :=
  literal.fraction = none ∧ literal.exponent = none

def toRat (literal : Numeral) : ℚ :=
  (if literal.negative then -1 else 1) * (literal.significand * 10 ^ literal.scale)

theorem abs_toRat (literal : Numeral) :
    |literal.toRat| = literal.significand * 10 ^ literal.scale := by
  have nonneg : (0 : ℚ) ≤ literal.significand * 10 ^ literal.scale := by positivity
  unfold toRat
  split <;> simp [abs_of_nonneg nonneg]

theorem integer?_eq_none_iff {literal : Numeral} :
    literal.integer? = none ↔ ¬literal.IsInteger := by
  obtain ⟨negative, whole, fraction, exponent⟩ := literal
  cases fraction <;> cases exponent <;> simp [integer?, IsInteger]

theorem integer?_eq_some_iff {literal : Numeral} {z : ℤ} :
    literal.integer? = some z ↔ literal.IsInteger ∧ literal.toRat = z := by
  obtain ⟨negative, whole, fraction, exponent⟩ := literal
  cases fraction with
  | some => simp [integer?, IsInteger]
  | none =>
    cases exponent with
    | some => simp [integer?, IsInteger]
    | none =>
      have valued : toRat ⟨negative, whole, none, none⟩ =
          ((if negative then -(value whole : ℤ) else value whole : ℤ) : ℚ) := by
        cases negative <;> simp [toRat, significand, scale]
      rw [valued, Int.cast_inj]
      simp [integer?, IsInteger]

theorem Spelled.spelling_eq {literal : Numeral} {text : String}
    (spelled : Spelled literal text.toList) (integer : literal.IsInteger) :
    literal.spelling = text := by
  apply String.toList_inj.1
  generalize text.toList = text at spelled
  obtain ⟨-, fraction, exponent⟩ := spelled
  obtain ⟨rfl, rfl⟩ := integer
  cases fraction
  cases exponent
  simp [spelling]

/-- An integer other than zero has one spelling. -/
theorem Spelled.spelling_of_integer {literal : Numeral} {text : List Char}
    (spelled : Spelled literal text) {z : ℤ} (integer : literal.integer? = some z)
    (nonzero : z ≠ 0) : literal.spelling = Decimal.ofInt z := by
  obtain @⟨negative, whole, _, _, _, _, isWhole, -, -⟩ := spelled
  obtain ⟨⟨rfl, rfl⟩, -⟩ := integer?_eq_some_iff.1 integer
  obtain rfl := Option.some.inj integer
  have digits := digits_value isWhole
  have same : ⟨negative, whole, none, none⟩ =
      ofInt (if negative then -(value whole : ℤ) else value whole) := by
    cases negative with
    | true =>
      have positive : 0 < value whole := by simpa [Nat.pos_iff_ne_zero] using nonzero
      simp [ofInt, digits, positive]
    | false => simp [ofInt, digits]
  exact (congrArg spelling same).trans (spelling_ofInt _)

end Decimal.Numeral

namespace Number

theorem fits_iff {z : ℤ} : fits z ↔ -2 ^ 63 ≤ z ∧ z < 2 ^ 63 := by
  have least : Int64.minValue.toInt = -2 ^ 63 := by decide
  have greatest : Int64.maxValue.toInt = 2 ^ 63 - 1 := by decide
  rw [fits, Bool.and_eq_true, decide_eq_true_eq, decide_eq_true_eq, least, greatest]
  omega

section
variable (literal : Decimal.Numeral)

def double? : Option Decimal.Binary64 :=
  Decimal.Binary64.ofDecimal? literal.negative literal.significand literal.scale

theorem double?_eq_none_iff :
    double? literal = none ↔ Decimal.Binary64.overflow ≤ |literal.toRat| := by
  rw [double?, Decimal.Binary64.ofDecimal?_eq_none_iff, Decimal.Numeral.abs_toRat]

end

inductive Decodes (literal : Decimal.Numeral) : Number → Prop
  | value {z : ℤ} : literal.integer? = some z → fits z → Decodes literal (.integer (Int64.ofInt z))
  | digits {z : ℤ} : literal.integer? = some z → ¬fits z →
      Decodes literal (.beyond literal.spelling)
  | double {x : Decimal.Binary64} : literal.integer? = none → double? literal = some x →
      Decodes literal (.float x)
  | overflow : literal.integer? = none → double? literal = none →
      Decodes literal (.beyond literal.spelling)

theorem decodes_ofNumeral (literal : Decimal.Numeral) : Decodes literal (ofNumeral literal) := by
  unfold ofNumeral
  split
  next z integer =>
    split
    next inside => exact .value integer inside
    next outside => exact .digits integer outside
  next other =>
    split
    next x double => exact .double other double
    next far => exact .overflow other far

/-- What a number is if a text was decoded to it that spells a literal. -/
structure StandsFor (n : Number) (literal : Decimal.Numeral) (text : String) : Prop where
  integer : ∀ v : Int64, n = .integer v ↔ literal.IsInteger ∧ literal.toRat = v.toInt
  float : (∃ x, n = .float x) ↔
    ¬literal.IsInteger ∧ |literal.toRat| < Decimal.Binary64.overflow
  beyond : ∀ kept : String, n = .beyond kept ↔
    literal.IsInteger ∧ ¬(-2 ^ 63 ≤ literal.toRat ∧ literal.toRat < 2 ^ 63) ∧ kept = text ∨
    ¬literal.IsInteger ∧ Decimal.Binary64.overflow ≤ |literal.toRat| ∧ kept = literal.spelling

section
variable {literal : Decimal.Numeral} {n : Number} (decodes : Decodes literal n)
include decodes

theorem Decodes.eq_integer_iff {v : Int64} :
    n = .integer v ↔ literal.IsInteger ∧ literal.toRat = v.toInt := by
  rw [← Decimal.Numeral.integer?_eq_some_iff]
  cases decodes with
  | @value z integer inside =>
    obtain ⟨lower, upper⟩ := fits_iff.1 inside
    rw [integer, Option.some.injEq, Number.integer.injEq, ← Int64.toInt_inj,
      Int64.toInt_ofInt_of_le lower upper]
  | @digits z integer outside =>
    refine iff_of_false nofun fun same => ?_
    obtain rfl := Option.some.inj (integer.symm.trans same)
    exact outside (fits_toInt v)
  | double other | overflow other => simp [other]

theorem Decodes.exists_float_iff :
    (∃ x, n = .float x) ↔
      ¬literal.IsInteger ∧ |literal.toRat| < Decimal.Binary64.overflow := by
  rw [← Decimal.Numeral.integer?_eq_none_iff, ← not_le, ← double?_eq_none_iff]
  cases decodes with
  | value integer | digits integer => simp [integer]
  | double other double => simp [other, double]
  | overflow other far => simp [far]

theorem Decodes.eq_beyond_iff {kept : String} :
    n = .beyond kept ↔
      literal.spelling = kept ∧
        (literal.IsInteger ∧ ¬(-2 ^ 63 ≤ literal.toRat ∧ literal.toRat < 2 ^ 63) ∨
          ¬literal.IsInteger ∧ Decimal.Binary64.overflow ≤ |literal.toRat|) := by
  have range : ∀ {z : ℤ}, literal.integer? = some z →
      literal.IsInteger ∧ (fits z ↔ -2 ^ 63 ≤ literal.toRat ∧ literal.toRat < 2 ^ 63) := by
    intro z integer
    obtain ⟨isInteger, value⟩ := Decimal.Numeral.integer?_eq_some_iff.1 integer
    refine ⟨isInteger, ?_⟩
    rw [fits_iff, value]
    norm_cast
  rw [← double?_eq_none_iff]
  cases decodes with
  | value integer inside =>
    obtain ⟨isInteger, range⟩ := range integer
    simp [isInteger, ← range, inside]
  | digits integer outside =>
    obtain ⟨isInteger, range⟩ := range integer
    simp [isInteger, ← range, outside]
  | double other double =>
    simp [Decimal.Numeral.integer?_eq_none_iff.1 other, double]
  | overflow other far =>
    simp [Decimal.Numeral.integer?_eq_none_iff.1 other, far]

theorem Decodes.standsFor {text : String} (spelled : literal.Spelled text.toList) :
    n.StandsFor literal text where
  integer _ := decodes.eq_integer_iff
  float := decodes.exists_float_iff
  beyond kept := by
    rw [decodes.eq_beyond_iff, eq_comm]
    by_cases integer : literal.IsInteger
    · simp [integer, spelled.spelling_eq integer, and_comm]
    · simp [integer, and_comm]

section
variable {text : List Char} (spelled : literal.Spelled text)
include spelled

/-- An integer is written in its own digits, whether 64 bits hold it or not. -/
theorem Decodes.literal_of_integer {z : ℤ} (integer : literal.integer? = some z) :
    n.literal = Decimal.ofInt z := by
  cases decodes with
  | value same inside =>
    obtain rfl := Option.some.inj (integer.symm.trans same)
    obtain ⟨lower, upper⟩ := fits_iff.1 inside
    rw [Number.literal, Int64.toInt_ofInt_of_le lower upper]
  | digits same outside =>
    obtain rfl := Option.some.inj (integer.symm.trans same)
    have nonzero : z ≠ 0 := by
      rintro rfl
      exact outside (by decide)
    exact spelled.spelling_of_integer integer nonzero
  | double other | overflow other => cases integer.symm.trans other

theorem Decodes.pointed_literal_iff :
    Decimal.Pointed n.literal.toList ↔
      literal.fraction.isSome ∨
        literal.exponent.isSome ∧ |literal.toRat| < Decimal.Binary64.overflow := by
  have far := double?_eq_none_iff literal
  cases integer : literal.integer? with
  | some z =>
    obtain ⟨⟨noFraction, noExponent⟩, -⟩ := Decimal.Numeral.integer?_eq_some_iff.1 integer
    rw [decodes.literal_of_integer spelled integer]
    exact iff_of_false (Decimal.not_pointed_ofInt z) (by simp [noFraction, noExponent])
  | none =>
    have other := Decimal.Numeral.integer?_eq_none_iff.1 integer
    rw [Decimal.Numeral.IsInteger, not_and_or] at other
    cases decodes with
    | value same | digits same => cases integer.symm.trans same
    | @double x _ double =>
      rw [double] at far
      have near : |literal.toRat| < Decimal.Binary64.overflow := by simpa using far
      exact iff_of_true x.pointed_text (by simpa [near, Option.isSome_iff_ne_none] using other)
    | overflow _ beyond =>
      exact spelled.pointed_spelling.trans (by simp [not_lt.2 (far.1 beyond)])

/-- Only the literal of an integer is written like that integer. -/
theorem Decodes.literal_eq_ofInt_iff {z : ℤ} :
    n.literal = Decimal.ofInt z ↔ literal.IsInteger ∧ literal.toRat = z := by
  rw [← Decimal.Numeral.integer?_eq_some_iff]
  cases integer : literal.integer? with
  | some y =>
    rw [decodes.literal_of_integer spelled integer, Decimal.Numeral.ofInt_inj, Option.some.injEq]
  | none =>
    refine iff_of_false (fun written => ?_) nofun
    cases decodes with
    | value same | digits same => cases integer.symm.trans same
    | @double x =>
      exact Decimal.not_pointed_ofInt z (written ▸ x.pointed_text)
    | overflow =>
      -- The spelling is that of an integer, so the literal is one as well.
      have again := spelled.respelled
      rw [show literal.spelling = Decimal.ofInt z from written] at again
      rw [again.unique (Decimal.Numeral.spelled_ofInt z), Decimal.Numeral.integer?_ofInt] at integer
      cases integer

end

end

end Number

end Legible
