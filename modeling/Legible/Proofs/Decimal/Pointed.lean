import Legible.Proofs.Decimal.Starts

/-!
Points in numbers. A double written for source has digits on both sides of a point; a literal kept
as it is spelled has a point if it has a fraction; and an integer has none.
-/

set_option autoImplicit false

namespace Legible.Decimal

/-- A text with a point between two digits. -/
def Pointed (text : List Char) : Prop :=
  ∃ before left right after, text = before ++ left :: '.' :: right :: after ∧
    left.isDigit ∧ right.isDigit

theorem Pointed.append_left {text : List Char} (pointed : Pointed text) (first : List Char) :
    Pointed (first ++ text) := by
  obtain ⟨before, left, right, after, rfl, digits⟩ := pointed
  exact ⟨first ++ before, left, right, after, (List.append_assoc ..).symm, digits⟩

theorem Pointed.append_right {text : List Char} (pointed : Pointed text) (last : List Char) :
    Pointed (text ++ last) := by
  obtain ⟨before, left, right, after, rfl, digits⟩ := pointed
  exact ⟨before, left, right, after ++ last, by simp, digits⟩

theorem IsDigits.append {first second : List Char} (isDigits : IsDigits first)
    (all : ∀ c ∈ second, c.isDigit) : IsDigits (first ++ second) :=
  ⟨by simp [isDigits.1], List.forall_mem_append.2 ⟨isDigits.2, all⟩⟩

theorem pointed_of_isDigits {whole fraction : List Char} (left : IsDigits whole)
    (right : IsDigits fraction) : Pointed (whole ++ '.' :: fraction) := by
  obtain ⟨c, later, rfl, digit⟩ := right.head
  obtain ⟨nonempty, all⟩ := left
  obtain ⟨before, last, rfl⟩ := (List.eq_nil_or_concat whole).resolve_left nonempty
  exact ⟨before, last, c, later, by simp, all last (by simp), digit⟩

theorem not_pointed {text : List Char} (noPoint : '.' ∉ text) : ¬Pointed text := by
  rintro ⟨before, left, right, after, rfl, -⟩
  simp at noPoint

theorem pointed_positional {digits : List Char} (isDigits : IsDigits digits) (point : Int) :
    Pointed (positional digits point) := by
  have zeros : ∀ count, ∀ c ∈ List.replicate count '0', c.isDigit := by
    intro count c member
    rw [List.eq_of_mem_replicate member]
    rfl
  unfold positional
  split
  · have zero : IsDigits ['0'] := by decide
    have fraction : IsDigits (List.replicate (-point).toNat '0' ++ digits) :=
      ⟨by simp [isDigits.1], List.forall_mem_append.2 ⟨zeros _, isDigits.2⟩⟩
    simpa using pointed_of_isDigits zero fraction
  · split
    · exact pointed_of_isDigits (isDigits.append (zeros _)) (by decide)
    · refine pointed_of_isDigits ⟨?_, fun c member => isDigits.2 c (List.mem_of_mem_take member)⟩
        ⟨?_, fun c member => isDigits.2 c (List.mem_of_mem_drop member)⟩
      · rw [Ne, List.take_eq_nil_iff, not_or]
        exact ⟨by omega, isDigits.1⟩
      · rw [Ne, List.drop_eq_nil_iff]
        omega

theorem pointed_mantissa {digits : List Char} (isDigits : IsDigits digits) :
    Pointed (mantissa .pointed digits) := by
  unfold mantissa
  split
  next => exact absurd rfl isDigits.1
  next digit => exact pointed_of_isDigits isDigits (by decide)
  next digit rest more =>
    obtain ⟨-, all⟩ := isDigits
    rw [List.forall_mem_cons] at all
    have first : IsDigits [digit] := ⟨List.cons_ne_nil _ _, List.forall_mem_singleton.2 all.1⟩
    exact pointed_of_isDigits first ⟨more, all.2⟩

theorem isDigits_dropTrailingZeros {n : Nat} (nonzero : n ≠ 0) :
    IsDigits (dropTrailingZeros (digits n)) :=
  ⟨dropTrailingZeros_digits_ne_nil nonzero, fun _ member =>
    isDigit_of_mem_digits (dropTrailingZeros_subset _ member)⟩

theorem pointed_scientific (s : Scientific) : Pointed (s.text .pointed) := by
  simp only [Scientific.text]
  split
  · have zero : IsDigits ['0'] := by decide
    exact pointed_of_isDigits zero zero
  next nonzero =>
    have isDigits := isDigits_dropTrailingZeros nonzero
    split
    · exact pointed_positional isDigits _
    · exact (pointed_mantissa isDigits).append_right _

theorem Binary64.pointed_text (x : Binary64) : Pointed (x.text .pointed).toList := by
  rw [Binary64.text, String.toList_append, String.toList_ofList]
  exact (pointed_scientific x.shortest).append_left _

theorem not_pointed_ofInt (z : Int) : ¬Pointed (ofInt z).toList := by
  refine not_pointed fun member => ?_
  have noInteger := ofInt_numeric z '.' member
  revert noInteger
  decide

namespace Numeral

/-- A literal that is kept as it is spelled has a point if it has a fraction. -/
theorem Spelled.pointed_spelling {literal : Numeral} {text : List Char}
    (spelled : Spelled literal text) :
    Pointed literal.spelling.toList ↔ literal.fraction.isSome := by
  obtain ⟨isWhole, fraction, exponent⟩ := spelled
  have noPoint : ∀ {digits : List Char}, IsDigits digits → '.' ∉ digits :=
    fun isDigits member => absurd (isDigits.2 '.' member) (by decide)
  simp only [spelling, String.toList_ofList]
  cases fraction with
  | none =>
    refine iff_of_false (not_pointed ?_) (by simp)
    simp only [List.mem_append, not_or]
    refine ⟨⟨⟨?_, noPoint isWhole.isDigits⟩, List.not_mem_nil⟩, ?_⟩
    · split <;> decide
    · cases exponent with
      | none => exact List.not_mem_nil
      | some mark sign isDigits =>
        simp only [List.mem_cons, not_or]
        refine ⟨by decide, ?_, noPoint isDigits⟩
        split <;> decide
  | some isDigits =>
    refine iff_of_true ?_ rfl
    rw [List.append_assoc _ _ ('.' :: _)]
    exact ((pointed_of_isDigits isWhole.isDigits isDigits).append_left _).append_right _

end Numeral

end Legible.Decimal
