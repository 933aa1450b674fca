import Legible.Expr.Render
import Legible.Proofs.Json.Numbers
import Legible.Typespec.Reading
import Legible.Typespec.Render

/-!
Numbers from JSON to source text.

A construct of an integer and one of a float both write whatever number they hold, so it is the
literal in JSON, and not the construct, that decides whether there is a point.
-/

set_option autoImplicit false

namespace Legible

open Decimal (Numeral)

variable (layout : Layout) (position : Position) (scope : Scope) (a : Term)

/-- Every integer keeps its digits, in code and in types. A float is written with a point between
two digits if its literal has a fraction, or has an exponent and is not beyond all doubles, and like
an integer if its literal is that integer. -/
theorem render_decoded_numbers :
    (∀ z : ℤ, ∃ n, Term.ofJson (Term.numberJson (Decimal.ofInt z)) = .ok (.number n) ∧
      let integer := Construct.integer.term a [.number n]
      (Expr.ofTerm integer).render layout position scope = .plain (Decimal.ofInt z) ∧
        (Typespec.ofTerm integer).text = Decimal.ofInt z) ∧
    ∀ (literal : Numeral) (text : String), literal.Spelled text.toList →
      ∃ n written, Term.ofJson (Term.numberJson text) = .ok (.number n) ∧
        (Expr.ofTerm (Construct.float.term a [.number n])).render layout position scope =
          .plain written ∧
        (Decimal.Pointed written.toList ↔
          literal.fraction.isSome ∨
            literal.exponent.isSome ∧ |literal.toRat| < Decimal.Binary64.overflow) ∧
        ∀ z : ℤ, written = Decimal.ofInt z ↔ literal.IsInteger ∧ literal.toRat = z := by
  refine ⟨fun z => ?_, fun literal text spelled => ?_⟩
  · have spelled := Numeral.spelled_ofInt z
    have written := (Number.decodes_ofNumeral _).literal_of_integer spelled
      (Numeral.integer?_ofInt z)
    exact ⟨_, Term.ofJson_numberJson spelled, congrArg Rendering.plain written, written⟩
  · have decodes := Number.decodes_ofNumeral literal
    exact ⟨_, _, Term.ofJson_numberJson spelled, rfl, decodes.pointed_literal_iff spelled,
      fun z => decodes.literal_eq_ofInt_iff spelled⟩

/-- A float whose literal is an integer, and one beyond all doubles, have no point. -/
theorem render_float_without_point :
    let float := fun n => Construct.float.term (.number (.integer 1)) [.number n]
    Term.ofJson (Term.numberJson "1") = .ok (.number (.integer 1)) ∧
      (Expr.ofTerm (float (.integer 1))).render {} .expression ∅ = .plain "1" ∧
      ¬Decimal.Pointed "1".toList ∧
    Term.ofJson (Term.numberJson "1e309") = .ok (.number (.beyond "1e+309")) ∧
      (Expr.ofTerm (float (.beyond "1e+309"))).render {} .expression ∅ = .plain "1e+309" ∧
      ¬Decimal.Pointed "1e+309".toList :=
  ⟨Term.ofJson_numberJson (Numeral.spelled_ofInt 1), rfl, Decimal.not_pointed (by decide),
    Term.ofJson_farPower.2, rfl, Decimal.not_pointed (by decide)⟩

end Legible
