import Mathlib.Data.List.Basic
import Mathlib.Data.List.TakeWhile
import Legible.Proofs.Decimal.Integers

/-!
What numbers start with: a minus sign or a digit, in each of their forms. No name starts so.
-/

set_option autoImplicit false

namespace Legible

namespace Decimal

def StartsNumber (text : List Char) : Prop :=
  ∃ c ∈ text.head?, c = '-' ∨ c.isDigit

theorem startsNumber_cons {c : Char} {rest : List Char} :
    StartsNumber (c :: rest) ↔ c = '-' ∨ c.isDigit := by
  simp [StartsNumber]

theorem StartsNumber.append {text : List Char} (starts : StartsNumber text) (rest : List Char) :
    StartsNumber (text ++ rest) := by
  obtain ⟨c, first, number⟩ := starts
  exact ⟨c, List.mem_head?_append_of_mem_head? first, number⟩

theorem startsNumber_of_all {text : List Char} (nonempty : text ≠ [])
    (all : ∀ c ∈ text, c.isDigit) : StartsNumber text := by
  cases text with
  | nil => exact absurd rfl nonempty
  | cons c rest => exact startsNumber_cons.2 (.inr (all c List.mem_cons_self))

theorem StartsNumber.signed {text : List Char} (starts : StartsNumber text) (negative : Bool) :
    StartsNumber ((if negative then ['-'] else []) ++ text) := by
  cases negative with
  | true => exact startsNumber_cons.2 (.inl rfl)
  | false => exact starts

theorem startsNumber_ofInt (z : Int) : StartsNumber (ofInt z).toList := by
  obtain ⟨c, rest, whole, number⟩ := ofInt_head z
  exact whole ▸ startsNumber_cons.2 number

/-- The first digit of a number stays, since it is no zero. -/
theorem dropTrailingZeros_digits_ne_nil {n : Nat} (nonzero : n ≠ 0) :
    dropTrailingZeros (digits n) ≠ [] := by
  intro dropped
  rw [dropTrailingZeros, List.reverse_eq_nil_iff, List.dropWhile_eq_nil_iff] at dropped
  apply mt (head?_digits n).1 nonzero
  cases whole : digits n with
  | nil => exact absurd whole (digits_ne_nil n)
  | cons c rest =>
    have zero := dropped c (by simp [whole])
    exact congrArg some (of_decide_eq_true zero)

section
variable {digits : List Char} (nonempty : digits ≠ []) (all : ∀ c ∈ digits, c.isDigit)
include nonempty all

theorem startsNumber_positional (point : Int) : StartsNumber (positional digits point) := by
  have starts := startsNumber_of_all nonempty all
  unfold positional
  split
  · exact startsNumber_cons.2 (.inr rfl)
  · split
    · exact (starts.append _).append _
    next positive short =>
      have taken : digits.take point.toNat ≠ [] := by
        rw [Ne, List.take_eq_nil_iff, not_or]
        exact ⟨by omega, nonempty⟩
      exact (startsNumber_of_all taken fun c member => all c (List.mem_of_mem_take member)).append _

theorem startsNumber_mantissa (bare : Bare) : StartsNumber (mantissa bare digits) := by
  unfold mantissa
  split
  next => exact absurd rfl nonempty
  next digit =>
    have isDigit := all digit List.mem_cons_self
    cases bare <;> exact startsNumber_cons.2 (.inr isDigit)
  next digit rest _ => exact startsNumber_cons.2 (.inr (all digit List.mem_cons_self))

end

theorem startsNumber_scientific (bare : Bare) (s : Scientific) : StartsNumber (s.text bare) := by
  simp only [Scientific.text]
  split
  · exact startsNumber_cons.2 (.inr rfl)
  next nonzero =>
    have nonempty := dropTrailingZeros_digits_ne_nil nonzero
    have all : ∀ c ∈ dropTrailingZeros (digits s.significand), c.isDigit := fun c member =>
      isDigit_of_mem_digits (dropTrailingZeros_subset _ member)
    split
    · exact startsNumber_positional nonempty all _
    · exact (startsNumber_mantissa nonempty all bare).append _

theorem Binary64.startsNumber_text (bare : Bare) (x : Binary64) :
    StartsNumber (x.text bare).toList := by
  have sign : (if x.negative then "-" else "").toList = if x.negative then ['-'] else [] := by
    split <;> rfl
  simp only [Binary64.text, String.toList_append, String.toList_ofList, sign]
  exact (startsNumber_scientific bare x.shortest).signed x.negative

namespace Numeral

theorem Spelled.startsNumber_spelling {literal : Numeral} {text : List Char}
    (spelled : Spelled literal text) : StartsNumber literal.spelling.toList := by
  obtain ⟨c, later, whole, number⟩ := spelled.respelled.head
  exact whole ▸ startsNumber_cons.2 number

end Numeral

end Decimal

namespace Number

theorem IsDecoded.startsNumber_literal {value : Number} (decoded : value.IsDecoded) :
    Decimal.StartsNumber value.literal.toList := by
  cases value with
  | integer value => exact Decimal.startsNumber_ofInt value.toInt
  | float value => exact value.startsNumber_text .pointed
  | beyond spelling =>
    obtain ⟨text, literal, read, spelled⟩ := decoded.exists_spelling
    rw [Decimal.Numeral.ofText?_eq_some_iff_spelled] at read
    exact spelled ▸ read.startsNumber_spelling

end Number

end Legible
