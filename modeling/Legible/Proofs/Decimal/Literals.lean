import Legible.Decimal.Numeral

/-!
The texts that spell number literals, and that scanning finds the literals of just these texts.

A literal is read as far as it goes, so whatever follows it must not continue it: no digit, no point
and no exponent mark.
-/

set_option autoImplicit false

namespace Legible.Decimal

def IsDigits (text : List Char) : Prop :=
  text ≠ [] ∧ ∀ c ∈ text, c.isDigit

/-- Digits without a zero in front of others. -/
def IsWhole (text : List Char) : Prop :=
  text = ['0'] ∨ IsDigits text ∧ text.head? ≠ some '0'

theorem isDigits_iff {text : List Char} :
    (!text.isEmpty && text.all Char.isDigit) ↔ IsDigits text := by
  simp [IsDigits]

instance (text : List Char) : Decidable (IsDigits text) :=
  decidable_of_iff _ isDigits_iff

theorem IsDigits.head {digits : List Char} (isDigits : IsDigits digits) :
    ∃ c later, digits = c :: later ∧ c.isDigit := by
  obtain ⟨c, later, rfl⟩ := List.exists_cons_of_ne_nil isDigits.1
  exact ⟨c, later, rfl, isDigits.2 c List.mem_cons_self⟩

theorem IsWhole.isDigits {text : List Char} (whole : IsWhole text) : IsDigits text := by
  rcases whole with rfl | ⟨digits, -⟩
  · exact ⟨List.cons_ne_nil _ _, by simp⟩
  · exact digits

namespace Numeral

inductive SpelledSign : Bool → List Char → Prop
  | minus : SpelledSign true ['-']
  | plus : SpelledSign false ['+']
  | bare : SpelledSign false []

inductive SpelledFraction : Option (List Char) → List Char → Prop
  | none : SpelledFraction none []
  | some {digits : List Char} : IsDigits digits → SpelledFraction (some digits) ('.' :: digits)

inductive SpelledExponent : Option Exponent → List Char → Prop
  | none : SpelledExponent none []
  | some {mark : Char} {negative : Bool} {sign digits : List Char} : mark = 'e' ∨ mark = 'E' →
      SpelledSign negative sign → IsDigits digits →
      SpelledExponent (some ⟨negative, digits⟩) (mark :: (sign ++ digits))

/-- The texts of a literal: a minus sign if it is negative, and its three parts. -/
inductive Spelled : Numeral → List Char → Prop
  | parts {negative : Bool} {whole fractionText exponentText : List Char}
      {fraction : Option (List Char)} {exponent : Option Exponent} :
      IsWhole whole → SpelledFraction fraction fractionText →
      SpelledExponent exponent exponentText →
      Spelled ⟨negative, whole, fraction, exponent⟩
        ((if negative then ['-'] else []) ++ (whole ++ (fractionText ++ exponentText)))

section
variable {text rest digits : List Char}

theorem isDigits_of_scanDigits (scanned : scanDigits text = some (digits, rest)) :
    IsDigits digits ∧ text = digits ++ rest := by
  simp only [scanDigits, Option.ite_none_left_eq_some, List.isEmpty_iff, Option.some.injEq,
    Prod.mk.injEq] at scanned
  obtain ⟨nonempty, rfl, rfl⟩ := scanned
  exact ⟨⟨nonempty, List.all_eq_true.1 List.all_takeWhile⟩, List.takeWhile_append_dropWhile.symm⟩

theorem isWhole_of_scanWhole (scanned : scanWhole text = some (digits, rest)) :
    IsWhole digits ∧ text = digits ++ rest := by
  unfold scanWhole at scanned
  split at scanned
  next later =>
    split at scanned
    · cases scanned
    · cases scanned
      exact ⟨.inl rfl, rfl⟩
  next noZero =>
    obtain ⟨isDigits, rfl⟩ := isDigits_of_scanDigits scanned
    refine ⟨.inr ⟨isDigits, fun zero => ?_⟩, rfl⟩
    obtain ⟨later, rfl⟩ := List.head?_eq_some_iff.1 zero
    exact noZero (later ++ rest) rfl

theorem spelled_of_scanFraction {fraction : Option (List Char)}
    (scanned : scanFraction text = some (fraction, rest)) :
    ∃ fractionText, SpelledFraction fraction fractionText ∧ text = fractionText ++ rest := by
  unfold scanFraction at scanned
  split at scanned
  · simp only [Option.map_eq_some_iff, Prod.exists, Prod.mk.injEq] at scanned
    obtain ⟨found, left, eq, rfl, rfl⟩ := scanned
    obtain ⟨isDigits, rfl⟩ := isDigits_of_scanDigits eq
    exact ⟨'.' :: found, .some isDigits, rfl⟩
  · cases scanned
    exact ⟨[], .none, rfl⟩

theorem spelled_scanSign (text : List Char) :
    ∃ sign, SpelledSign (scanSign text).1 sign ∧ text = sign ++ (scanSign text).2 := by
  unfold scanSign
  split
  · exact ⟨['+'], .plus, rfl⟩
  · unfold scanMinus
    split
    · exact ⟨['-'], .minus, rfl⟩
    · exact ⟨[], .bare, rfl⟩

theorem spelled_of_scanExponent {exponent : Option Exponent}
    (scanned : scanExponent text = some (exponent, rest)) :
    ∃ exponentText, SpelledExponent exponent exponentText ∧ text = exponentText ++ rest := by
  unfold scanExponent at scanned
  split at scanned
  next c later =>
    split at scanned
    next mark =>
      simp only [Option.map_eq_some_iff, Prod.exists, Prod.mk.injEq] at scanned
      obtain ⟨found, left, eq, rfl, rfl⟩ := scanned
      obtain ⟨sign, spelledSign, whole⟩ := spelled_scanSign later
      obtain ⟨isDigits, after⟩ := isDigits_of_scanDigits eq
      refine ⟨_, .some mark spelledSign isDigits, ?_⟩
      rw [whole, after, List.cons_append, List.append_assoc]
    next =>
      cases scanned
      exact ⟨[], .none, rfl⟩
  next =>
    cases scanned
    exact ⟨[], .none, rfl⟩

theorem scanMinus_append (text : List Char) :
    text = (if (scanMinus text).1 then ['-'] else []) ++ (scanMinus text).2 := by
  unfold scanMinus
  split <;> rfl

theorem spelled_of_scan? {literal : Numeral} (scanned : scan? text = some (literal, rest)) :
    ∃ literalText, Spelled literal literalText ∧ text = literalText ++ rest := by
  simp only [scan?, Option.bind_eq_bind, Option.bind_eq_some_iff, Prod.exists, Option.pure_def,
    Option.some.injEq, Prod.mk.injEq] at scanned
  obtain ⟨whole, afterWhole, wholeEq, fraction, afterFraction, fractionEq, exponent, afterExponent,
    exponentEq, rfl, rfl⟩ := scanned
  obtain ⟨isWhole, afterMinus⟩ := isWhole_of_scanWhole wholeEq
  obtain ⟨fractionText, spelledFraction, rfl⟩ := spelled_of_scanFraction fractionEq
  obtain ⟨exponentText, spelledExponent, rfl⟩ := spelled_of_scanExponent exponentEq
  refine ⟨_, .parts isWhole spelledFraction spelledExponent, ?_⟩
  have signed := scanMinus_append text
  rw [afterMinus] at signed
  simpa only [List.append_assoc] using signed

end

def endsInteger (text : List Char) : Prop :=
  ∀ c ∈ text.head?, c.isDigit = false ∧ c ≠ '.' ∧ c ≠ 'e' ∧ c ≠ 'E'

section
variable {rest : List Char}

theorem scanDigits_append {digits : List Char} (isDigits : IsDigits digits)
    (ends : ∀ c ∈ rest.head?, c.isDigit = false) :
    scanDigits (digits ++ rest) = some (digits, rest) := by
  have nothing : rest.takeWhile Char.isDigit = [] ∧ rest.dropWhile Char.isDigit = rest := by
    cases rest with
    | nil => exact ⟨rfl, rfl⟩
    | cons c later => simp [ends c rfl]
  simp [scanDigits, List.takeWhile_append_of_pos isDigits.2,
    List.dropWhile_append_of_pos isDigits.2, nothing, isDigits.1]

theorem scanWhole_append {whole : List Char} (isWhole : IsWhole whole)
    (ends : ∀ c ∈ rest.head?, c.isDigit = false) :
    scanWhole (whole ++ rest) = some (whole, rest) := by
  rcases isWhole with rfl | ⟨isDigits, noZero⟩
  · cases rest with
    | nil => rfl
    | cons c later =>
      change (if c.isDigit then _ else _) = _
      rw [ends c rfl]
      rfl
  · have first : (whole ++ rest).head? ≠ some '0' := by
      obtain ⟨c, later, rfl, -⟩ := isDigits.head
      exact noZero
    unfold scanWhole
    split
    next same => exact absurd (congrArg List.head? same) first
    next => exact scanDigits_append isDigits ends

theorem scanFraction_append {fraction : Option (List Char)} {text : List Char}
    (spelled : SpelledFraction fraction text)
    (ends : ∀ c ∈ rest.head?, c.isDigit = false ∧ c ≠ '.') :
    scanFraction (text ++ rest) = some (fraction, rest) := by
  cases spelled with
  | none =>
    cases rest with
    | nil => rfl
    | cons c later =>
      have point := (ends c rfl).2
      unfold scanFraction
      split
      next same =>
        cases same
        exact absurd rfl point
      next => rfl
  | some isDigits =>
    rw [List.cons_append, scanFraction, scanDigits_append isDigits fun c first => (ends c first).1]
    rfl

theorem scanMinus_digits {digits : List Char} (isDigits : IsDigits digits) (negative : Bool) :
    scanMinus ((if negative then ['-'] else []) ++ (digits ++ rest)) =
      (negative, digits ++ rest) := by
  obtain ⟨c, later, rfl, digit⟩ := isDigits.head
  cases negative with
  | true => rfl
  | false =>
    unfold scanMinus
    split
    next same =>
      cases same
      exact absurd digit (by decide)
    next => rfl

theorem scanSign_append {negative : Bool} {sign digits : List Char}
    (spelled : SpelledSign negative sign) (isDigits : IsDigits digits) :
    scanSign (sign ++ (digits ++ rest)) = (negative, digits ++ rest) := by
  cases spelled with
  | minus => rfl
  | plus => rfl
  | bare =>
    unfold scanSign
    split
    next later same =>
      obtain ⟨c, more, rfl, digit⟩ := isDigits.head
      cases same
      exact absurd digit (by decide)
    next => exact scanMinus_digits isDigits false

theorem scanExponent_append {exponent : Option Exponent} {text : List Char}
    (spelled : SpelledExponent exponent text) (ends : endsInteger rest) :
    scanExponent (text ++ rest) = some (exponent, rest) := by
  cases spelled with
  | none =>
    cases rest with
    | nil => rfl
    | cons c later =>
      obtain ⟨-, -, lower, upper⟩ := ends c rfl
      simp [scanExponent, lower, upper]
  | some mark sign isDigits =>
    rw [List.cons_append, List.append_assoc, scanExponent, if_pos mark,
      scanSign_append sign isDigits]
    simp only [scanDigits_append isDigits fun c first => (ends c first).1, Option.map_some]

/-- An exponent starts with its mark, so it ends the digits and the fraction in front of it. -/
theorem SpelledExponent.head {exponent : Option Exponent} {text : List Char}
    (spelled : SpelledExponent exponent text) (ends : endsInteger rest) :
    ∀ c ∈ (text ++ rest).head?, c.isDigit = false ∧ c ≠ '.' := by
  cases spelled with
  | none => exact fun c first => ⟨(ends c first).1, (ends c first).2.1⟩
  | some mark =>
    rintro _ ⟨⟩
    rcases mark with rfl | rfl <;> decide

theorem SpelledFraction.head {fraction : Option (List Char)} {text : List Char}
    (spelled : SpelledFraction fraction text)
    (ends : ∀ c ∈ rest.head?, c.isDigit = false ∧ c ≠ '.') :
    ∀ c ∈ (text ++ rest).head?, c.isDigit = false := by
  cases spelled with
  | none => exact fun c first => (ends c first).1
  | some =>
    rintro _ ⟨⟩
    decide

theorem Spelled.head {literal : Numeral} {text : List Char} (spelled : Spelled literal text) :
    ∃ c later, text = c :: later ∧ (c = '-' ∨ c.isDigit) := by
  obtain @⟨negative, _, _, _, _, _, isWhole, -, -⟩ := spelled
  obtain ⟨c, later, rfl, digit⟩ := isWhole.isDigits.head
  cases negative with
  | true => exact ⟨'-', _, rfl, .inl rfl⟩
  | false => exact ⟨c, _, rfl, .inr digit⟩

/-- A literal is scanned as far as it goes. -/
theorem scan?_append {literal : Numeral} {text : List Char} (spelled : Spelled literal text)
    (ends : endsInteger rest) : scan? (text ++ rest) = some (literal, rest) := by
  obtain ⟨isWhole, fraction, exponent⟩ := spelled
  have afterFraction := exponent.head ends
  have afterWhole := fraction.head afterFraction
  simp only [List.append_assoc, scan?, scanMinus_digits isWhole.isDigits,
    scanWhole_append isWhole afterWhole, scanFraction_append fraction afterFraction,
    scanExponent_append exponent ends, Option.bind_eq_bind, Option.bind_some, Option.pure_def]

end

theorem ofText?_eq_some_iff_spelled {literal : Numeral} {text : List Char} :
    ofText? text = some literal ↔ Spelled literal text := by
  rw [ofText?_eq_some_iff]
  refine ⟨fun scanned => ?_, fun spelled => ?_⟩
  · obtain ⟨literalText, spelled, rfl⟩ := spelled_of_scan? scanned
    rwa [List.append_nil]
  · have scanned : scan? (text ++ []) = some (literal, []) :=
      scan?_append spelled (by rintro _ ⟨⟩)
    rwa [List.append_nil] at scanned

theorem Spelled.unique {first second : Numeral} {text : List Char} (left : Spelled first text)
    (right : Spelled second text) : first = second := by
  rw [← ofText?_eq_some_iff_spelled] at left right
  exact Option.some.inj (left.symm.trans right)

/-- The mark and the sign of an exponent are chosen anew, so the spelling may be another text. -/
theorem Spelled.respelled {literal : Numeral} {text : List Char} (spelled : Spelled literal text) :
    Spelled literal literal.spelling.toList := by
  obtain ⟨isWhole, fraction, exponent⟩ := spelled
  simp only [spelling, String.toList_ofList, List.append_assoc]
  refine .parts isWhole ?_ ?_
  · cases fraction with
    | none => exact .none
    | some isDigits => exact .some isDigits
  · cases exponent with
    | none => exact .none
    | @some _ negative _ _ _ _ isDigits =>
      cases negative with
      | true => exact .some (.inl rfl) .minus isDigits
      | false => exact .some (.inl rfl) .plus isDigits

end Numeral

end Legible.Decimal
