/-!
Characters by their code points.
-/

set_option autoImplicit false

namespace Legible.Character

/-- The character with a code point; surrogates and numbers out of range have none. -/
def ofCode? (code : Int) : Option Char :=
  if 0 ≤ code ∧ code.toNat.isValidChar then some (Char.ofNat code.toNat) else none

theorem ofCode?_toNat (c : Char) : ofCode? c.toNat = some c := by
  have valid : c.toNat.isValidChar := c.valid
  rw [ofCode?, if_pos ⟨Int.natCast_nonneg _, valid⟩, Int.toNat_natCast, Char.ofNat_toNat]

theorem ofCode?_eq_some_iff {code : Int} {c : Char} : ofCode? code = some c ↔ code = c.toNat := by
  constructor
  · intro found
    simp only [ofCode?, Option.ite_none_right_eq_some, Option.some.injEq] at found
    obtain ⟨⟨natural, valid⟩, rfl⟩ := found
    rw [Char.ofNat, dif_pos valid]
    have kept : (Char.ofNatAux code.toNat valid).toNat = code.toNat := rfl
    omega
  · rintro rfl
    exact ofCode?_toNat c

end Legible.Character
