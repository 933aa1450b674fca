/-!
Numbers in hexadecimal.
-/

set_option autoImplicit false

namespace Legible.Text

def hexDigit? (c : Char) : Option Nat :=
  if '0' ≤ c ∧ c ≤ '9' then some (c.toNat - '0'.toNat)
  else if 'a' ≤ c ∧ c ≤ 'f' then some (c.toNat - 'a'.toNat + 10)
  else if 'A' ≤ c ∧ c ≤ 'F' then some (c.toNat - 'A'.toNat + 10)
  else none

def hexValue? (digits : List Char) : Option Nat :=
  digits.foldlM (fun total digit => (hexDigit? digit).map (16 * total + ·)) 0

def takeHex? (count : Nat) (text : List Char) : Option (Nat × List Char) :=
  if text.length < count then none
  else (hexValue? (text.take count)).map fun code => (code, text.drop count)

theorem takeHex?_length {count : Nat} {text rest : List Char} {code : Nat}
    (read : takeHex? count text = some (code, rest)) : rest.length + count = text.length := by
  simp only [takeHex?, Option.ite_none_left_eq_some, Option.map_eq_some_iff, Prod.mk.injEq,
    Nat.not_lt] at read
  obtain ⟨long, _, _, _, rfl⟩ := read
  rw [List.length_drop]
  omega

end Legible.Text
