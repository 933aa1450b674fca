import Mathlib.Data.List.Induction
import Legible.Proofs.Decimal.Characters

/-!
Integers as literals: no fraction, no exponent, and no zero in front.
-/

set_option autoImplicit false

namespace Legible

namespace Decimal

theorem value_digits (n : Nat) : value (digits n) = n :=
  Nat.ofDigitChars_ten_toDigits

theorem head?_digits_append (n : Nat) (rest : List Char) :
    (digits n ++ rest).head? = (digits n).head? := by
  cases found : digits n with
  | nil => exact absurd found (digits_ne_nil n)
  | cons => rfl

theorem head?_digits (n : Nat) : (digits n).head? = some '0' ↔ n = 0 := by
  induction n using Nat.strongRecOn with
  | ind n ih =>
    by_cases small : n < 10
    · rw [digits, Nat.toDigits_of_lt_base small]
      clear ih
      revert n
      decide
    · have big : 10 ≤ n := Nat.le_of_not_lt small
      have rest := ih (n / 10) (by omega)
      rw [digits, Nat.toDigits_of_base_le (by decide) big, ← digits, head?_digits_append, rest]
      omega

theorem value_append (before : List Char) (last : Char) :
    value (before ++ [last]) = 10 * value before + (last.toNat - '0'.toNat) := by
  simp [value]

theorem toDigits_digit {c : Char} (digit : c.isDigit) :
    c.toNat - '0'.toNat < 10 ∧ Nat.toDigits 10 (c.toNat - '0'.toNat) = [c] := by
  obtain ⟨least, greatest⟩ := Char.isDigit_iff_toNat.1 digit
  have small : c.toNat - '0'.toNat < 10 := by
    have : '9'.toNat = '0'.toNat + 9 := rfl
    omega
  have each : ∀ n < 10, Nat.digitChar n = Char.ofNat ('0'.toNat + n) := by decide
  refine ⟨small, ?_⟩
  rw [Nat.toDigits_of_lt_base small, each _ small, Nat.add_sub_of_le least, Char.ofNat_toNat]

/-- Digits without a zero in front are those of the number that they spell. -/
theorem digits_value {text : List Char} (isWhole : IsWhole text) : digits (value text) = text := by
  induction text using List.reverseRecOn with
  | nil => exact absurd rfl isWhole.isDigits.1
  | append_singleton before last ih =>
    obtain ⟨nonempty, all⟩ := isWhole.isDigits
    obtain ⟨small, single⟩ := toDigits_digit (all last (by simp))
    rw [value_append]
    cases before with
    | nil => simpa [value, digits] using single
    | cons first rest =>
      have noZero : first ≠ '0' := by
        rcases isWhole with short | ⟨-, noZero⟩
        · simp at short
        · simpa using noZero
      have wholeBefore : IsWhole (first :: rest) :=
        .inr ⟨⟨List.cons_ne_nil _ _, fun c member => all c (List.mem_append_left _ member)⟩,
          by simpa using noZero⟩
      have spelled := ih wholeBefore
      have positive : 0 < value (first :: rest) := by
        refine Nat.pos_of_ne_zero fun zero => ?_
        have head := (head?_digits _).2 zero
        rw [spelled, List.head?_cons, Option.some.injEq] at head
        exact noZero head
      rw [digits, ← Nat.toDigits_append_toDigits (by decide) positive small, single]
      exact congrArg (· ++ [last]) spelled

theorem toList_ofInt (z : Int) :
    (ofInt z).toList = (if z < 0 then ['-'] else []) ++ digits z.natAbs := by
  cases z with
  | ofNat n => simp [ofInt]
  | negSucc n => simp [ofInt, Int.negSucc_lt_zero]

theorem ofInt_head (z : Int) :
    ∃ c rest, (ofInt z).toList = c :: rest ∧ (c = '-' ∨ c.isDigit) := by
  cases found : (ofInt z).toList with
  | nil => simp [toList_ofInt, digits_ne_nil] at found
  | cons c rest => exact ⟨c, rest, rfl, ofInt_numeric z c (by simp [found])⟩

namespace Numeral

def ofInt (z : Int) : Numeral where
  negative := z < 0
  whole := digits z.natAbs
  fraction := none
  exponent := none

theorem spelling_ofInt (z : Int) : (ofInt z).spelling = Decimal.ofInt z := by
  apply String.ext
  rw [toList_ofInt]
  simp [spelling, ofInt]

theorem integer?_ofInt (z : Int) : (ofInt z).integer? = some z := by
  simp only [integer?, ofInt, value_digits, decide_eq_true_eq, Option.some.injEq]
  split <;> omega

theorem isWhole_digits (n : Nat) : IsWhole (digits n) := by
  by_cases zero : n = 0
  · subst zero
    exact .inl rfl
  · exact .inr ⟨⟨digits_ne_nil n, fun c => isDigit_of_mem_digits⟩, mt (head?_digits n).1 zero⟩

theorem spelled_ofInt (z : Int) : Spelled (ofInt z) (Decimal.ofInt z).toList := by
  rw [toList_ofInt]
  have parts : Spelled (ofInt z) _ := .parts (isWhole_digits z.natAbs) .none .none
  simpa using parts

theorem ofInt_inj {y z : Int} : Decimal.ofInt y = Decimal.ofInt z ↔ y = z := by
  refine ⟨fun same => ?_, fun same => same ▸ rfl⟩
  have spelled := spelled_ofInt y
  rw [same] at spelled
  have integer := integer?_ofInt y
  rw [spelled.unique (spelled_ofInt z), integer?_ofInt, Option.some.injEq] at integer
  exact integer.symm

end Numeral

end Decimal

namespace Number

def ofInt (z : Int) : Number :=
  if fits z then .integer (Int64.ofInt z) else .beyond (Decimal.ofInt z)

/-- Numbers of integers, as they are decoded: every value of 64 bits, and the digits of every integer
that 64 bits do not hold. -/
inductive IsInteger : Number → Prop
  | value (v : Int64) : IsInteger (.integer v)
  | digits {z : Int} : fits z = false → IsInteger (.beyond (Decimal.ofInt z))

theorem fits_toInt (v : Int64) : fits v.toInt := by
  rw [fits, Bool.and_eq_true, decide_eq_true_eq, decide_eq_true_eq]
  exact ⟨Int64.minValue_le_toInt v, Int64.toInt_le v⟩

theorem ofInt_toInt (v : Int64) : ofInt v.toInt = .integer v := by
  rw [ofInt, if_pos (fits_toInt v), Int64.ofInt_toInt]

theorem IsInteger.exists_eq {n : Number} (integer : n.IsInteger) : ∃ z, n = ofInt z := by
  cases integer with
  | value v => exact ⟨v.toInt, (ofInt_toInt v).symm⟩
  | @digits z beyond => exact ⟨z, by rw [ofInt, beyond]; rfl⟩

theorem ofNumeral_ofInt (z : Int) : ofNumeral (.ofInt z) = ofInt z := by
  rw [ofNumeral, Decimal.Numeral.integer?_ofInt, Decimal.Numeral.spelling_ofInt]
  rfl

end Number

end Legible
