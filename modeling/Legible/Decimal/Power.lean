/-!
Powers of two and of ten: what the digits of doubles and of decimals count.
-/

set_option autoImplicit false

namespace Legible.Decimal

def powerOfTwo (exponent : Nat) : Nat :=
  Nat.pow 2 exponent

@[simp] theorem powerOfTwo_zero : powerOfTwo 0 = 1 := rfl

theorem powerOfTwo_succ (exponent : Nat) : powerOfTwo (exponent + 1) = powerOfTwo exponent * 2 :=
  rfl

theorem powerOfTwo_pos (exponent : Nat) : 0 < powerOfTwo exponent := by
  induction exponent with
  | zero => decide
  | succ exponent ih =>
    rw [powerOfTwo_succ]
    omega

def powerOfTen (exponent : Nat) : Nat :=
  Nat.pow 10 exponent

@[simp] theorem powerOfTen_zero : powerOfTen 0 = 1 := rfl

theorem powerOfTen_succ (exponent : Nat) : powerOfTen (exponent + 1) = powerOfTen exponent * 10 :=
  rfl

theorem powerOfTen_pos (exponent : Nat) : 0 < powerOfTen exponent := by
  induction exponent with
  | zero => decide
  | succ exponent ih =>
    rw [powerOfTen_succ]
    omega

end Legible.Decimal
