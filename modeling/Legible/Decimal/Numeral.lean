import Legible.Decimal.Digits

/-!
Number literals of JSON, kept as they are spelled.
-/

set_option autoImplicit false

namespace Legible.Decimal

structure Exponent where
  negative : Bool
  digits : List Char
  deriving DecidableEq, Repr

def Exponent.value (e : Exponent) : Int :=
  if e.negative then -(Decimal.value e.digits : Int) else Decimal.value e.digits

structure Numeral where
  negative : Bool
  whole : List Char
  fraction : Option (List Char)
  exponent : Option Exponent
  deriving DecidableEq, Repr

namespace Numeral

def scanDigits (text : List Char) : Option (List Char × List Char) :=
  let digits := text.takeWhile Char.isDigit
  if digits.isEmpty then none else some (digits, text.dropWhile Char.isDigit)

theorem scanDigits_length {text digits rest : List Char}
    (scanned : scanDigits text = some (digits, rest)) : rest.length < text.length := by
  have whole := congrArg List.length
    (List.takeWhile_append_dropWhile (p := Char.isDigit) (l := text))
  simp only [scanDigits, Option.ite_none_left_eq_some, List.isEmpty_iff, Option.some.injEq,
    Prod.mk.injEq] at scanned
  obtain ⟨nonempty, rfl, rfl⟩ := scanned
  have := List.length_pos_iff.2 nonempty
  rw [List.length_append] at whole
  omega

/-- The whole part: one zero, or digits that do not start with a zero. -/
def scanWhole : List Char → Option (List Char × List Char)
  | '0' :: rest => if (rest.headD ' ').isDigit then none else some (['0'], rest)
  | text => scanDigits text

theorem scanWhole_length {text digits rest : List Char}
    (scanned : scanWhole text = some (digits, rest)) : rest.length < text.length := by
  unfold scanWhole at scanned
  split at scanned
  · split at scanned
    · simp at scanned
    · cases scanned
      simp
  · exact scanDigits_length scanned

def scanFraction : List Char → Option (Option (List Char) × List Char)
  | '.' :: rest => (scanDigits rest).map fun (digits, rest) => (some digits, rest)
  | text => some (none, text)

theorem scanFraction_length {text rest : List Char} {digits : Option (List Char)}
    (scanned : scanFraction text = some (digits, rest)) : rest.length ≤ text.length := by
  unfold scanFraction at scanned
  split at scanned
  · simp only [Option.map_eq_some_iff, Prod.exists, Prod.mk.injEq] at scanned
    obtain ⟨found, left, eq, _, rfl⟩ := scanned
    have := scanDigits_length eq
    simp only [List.length_cons]
    omega
  · cases scanned
    exact Nat.le_refl _

def scanMinus : List Char → Bool × List Char
  | '-' :: rest => (true, rest)
  | text => (false, text)

theorem scanMinus_length (text : List Char) : (scanMinus text).2.length ≤ text.length := by
  unfold scanMinus
  split <;> simp

def scanSign : List Char → Bool × List Char
  | '+' :: rest => (false, rest)
  | text => scanMinus text

theorem scanSign_length (text : List Char) : (scanSign text).2.length ≤ text.length := by
  unfold scanSign
  split
  · simp
  · exact scanMinus_length text

/-- An exponent mark, of either case, must be followed by a digit or by a sign and a digit. -/
def scanExponent : List Char → Option (Option Exponent × List Char)
  | c :: rest =>
    if c = 'e' ∨ c = 'E' then
      let (negative, rest) := scanSign rest
      (scanDigits rest).map fun (digits, rest) => (some ⟨negative, digits⟩, rest)
    else some (none, c :: rest)
  | [] => some (none, [])

theorem scanExponent_length {text rest : List Char} {exponent : Option Exponent}
    (scanned : scanExponent text = some (exponent, rest)) : rest.length ≤ text.length := by
  unfold scanExponent at scanned
  split at scanned
  · rename_i c later
    split at scanned
    · simp only [Option.map_eq_some_iff, Prod.exists, Prod.mk.injEq] at scanned
      obtain ⟨found, left, eq, _, rfl⟩ := scanned
      have := scanDigits_length eq
      have := scanSign_length later
      simp only [List.length_cons]
      omega
    · cases scanned
      exact Nat.le_refl _
  · cases scanned
    exact Nat.le_refl _

def scan? (text : List Char) : Option (Numeral × List Char) := do
  let (negative, text) := scanMinus text
  let (whole, text) ← scanWhole text
  let (fraction, text) ← scanFraction text
  let (exponent, text) ← scanExponent text
  return (⟨negative, whole, fraction, exponent⟩, text)

theorem scan?_length {text rest : List Char} {literal : Numeral}
    (scanned : scan? text = some (literal, rest)) : rest.length < text.length := by
  simp only [scan?, Option.bind_eq_bind, Option.bind_eq_some_iff, Prod.exists, Option.pure_def,
    Option.some.injEq, Prod.mk.injEq] at scanned
  obtain ⟨whole, afterWhole, wholeEq, fraction, afterFraction, fractionEq, exponent, afterExponent,
    exponentEq, _, rfl⟩ := scanned
  have := scanMinus_length text
  have := scanWhole_length wholeEq
  have := scanFraction_length fractionEq
  have := scanExponent_length exponentEq
  omega

def ofText? (text : List Char) : Option Numeral :=
  match scan? text with
  | some (literal, []) => some literal
  | _ => none

theorem ofText?_eq_some_iff {text : List Char} {literal : Numeral} :
    ofText? text = some literal ↔ scan? text = some (literal, []) := by
  unfold ofText?
  split
  · rename_i found
    simp [found]
  · rename_i other
    simpa using fun found => other literal found

/-- The literal in its own digits; an exponent gets a lower case mark and an explicit sign. -/
def spelling (n : Numeral) : String :=
  let sign := if n.negative then ['-'] else []
  let fraction := match n.fraction with
    | some digits => '.' :: digits
    | none => []
  let exponent := match n.exponent with
    | some e => 'e' :: (if e.negative then '-' else '+') :: e.digits
    | none => []
  String.ofList (sign ++ n.whole ++ fraction ++ exponent)

def integer? (n : Numeral) : Option Int :=
  match n.fraction, n.exponent with
  | none, none => some (if n.negative then -(value n.whole : Int) else value n.whole)
  | _, _ => none

def significand (n : Numeral) : Nat :=
  value (n.whole ++ n.fraction.getD [])

def scale (n : Numeral) : Int :=
  (n.exponent.map Exponent.value).getD 0 - (n.fraction.getD []).length

end Numeral

end Legible.Decimal
