import Legible.Proofs.Operator.Grouping
import Legible.Proofs.Typespec.Reads

/-!
Constants in types and in code.

An operator is written in the same way in both places, but in a type its operands stand in no
parentheses. The text of a constant in a type is therefore its text in code without the pairs that
group operands, and two constants with different values can be one type.
-/

set_option autoImplicit false

namespace Legible

namespace Term

inductive Arithmetic : Term → Prop
  | integer {a : Term} {value : Number} : Arithmetic (Construct.integer.term a [.number value])
  | unaryOp {a operand : Term} {operator : String} : Arithmetic operand →
      Arithmetic (Construct.unaryOp.term a [.atom operator, operand])
  | binaryOp {a left right : Term} {operator : String} : Arithmetic left → Arithmetic right →
      Arithmetic (Construct.binaryOp.term a [.atom operator, left, right])

end Term

namespace Text

/-- The second text is the first one without a number of pairs of parentheses, which may be nested or
follow each other. -/
inductive Ungroups : Nat → List Char → List Char → Prop
  | nil : Ungroups 0 [] []
  | keep {pairs : Nat} {text bare : List Char} (c : Char) : Ungroups pairs text bare →
      Ungroups pairs (c :: text) (c :: bare)
  | pair {pairs pairs' : Nat} {inner bareInner later bareLater : List Char} :
      Ungroups pairs inner bareInner → Ungroups pairs' later bareLater →
      Ungroups (pairs + 1 + pairs') ('(' :: (inner ++ ')' :: later)) (bareInner ++ bareLater)

namespace Ungroups

variable {pairs pairs' : Nat} {text bare text' bare' : List Char}

theorem refl (text : List Char) : Ungroups 0 text text := by
  induction text with
  | nil => exact .nil
  | cons c rest ih => exact .keep c ih

theorem append (first : Ungroups pairs text bare) (second : Ungroups pairs' text' bare') :
    Ungroups (pairs + pairs') (text ++ text') (bare ++ bare') := by
  induction first with
  | nil => simpa using second
  | keep c _ ih => exact .keep c ih
  | pair inner _ _ ih =>
    rw [Nat.add_assoc, List.append_assoc]
    simpa using Ungroups.pair inner ih

theorem length_eq (ungroups : Ungroups pairs text bare) :
    text.length = bare.length + 2 * pairs := by
  induction ungroups with
  | nil => rfl
  | keep c _ ih =>
    simp only [List.length_cons, ih]
    omega
  | pair _ _ inner later =>
    simp only [List.length_cons, List.length_append, inner, later]
    omega

theorem eq_iff (ungroups : Ungroups pairs text bare) : bare = text ↔ pairs = 0 := by
  constructor
  · rintro rfl
    have := ungroups.length_eq
    omega
  · rintro rfl
    generalize none : 0 = pairs at ungroups
    induction ungroups with
    | nil => rfl
    | keep c _ ih => rw [ih none]
    | pair => omega

end Ungroups

end Text

open Text (Ungroups)

def Grouped (pairs : Nat) (text bare : String) : Prop :=
  Ungroups pairs text.toList bare.toList

namespace Grouped

variable {pairs pairs' : Nat} {text bare text' bare' : String}

theorem refl (text : String) : Grouped 0 text text :=
  Ungroups.refl text.toList

theorem append (first : Grouped pairs text bare) (second : Grouped pairs' text' bare') :
    Grouped (pairs + pairs') (text ++ text') (bare ++ bare') := by
  simpa [Grouped] using Ungroups.append first second

theorem between (opening closing : String) (inner : Grouped pairs text bare) :
    Grouped pairs (opening ++ text ++ closing) (opening ++ bare ++ closing) := by
  simpa using ((refl opening).append inner).append (refl closing)

theorem parenthesized (inner : Grouped pairs text bare) :
    Grouped (pairs + 1) (parenthesized text) bare := by
  simpa [Grouped, Legible.parenthesized] using Ungroups.pair inner .nil

theorem eq_iff (grouped : Grouped pairs text bare) : bare = text ↔ pairs = 0 := by
  rw [← Ungroups.eq_iff grouped, String.toList_inj]

end Grouped

namespace Operator

theorem exists_writeBinary_eq (operator : Option String) :
    ∃ opening middle closing, ∀ left right, writeBinary operator left right =
      opening ++ left ++ middle ++ right ++ closing := by
  have infixed : ∀ sign : String, ∃ opening middle closing : String, ∀ left right : String,
      left ++ " " ++ sign ++ " " ++ right = opening ++ left ++ middle ++ right ++ closing :=
    fun sign => ⟨"", " " ++ sign ++ " ", "", fun left right => by simp [String.append_assoc]⟩
  have called : ∀ function : String, ∃ opening middle closing : String, ∀ left right : String,
      function ++ "(" ++ left ++ ", " ++ right ++ ")" =
        opening ++ left ++ middle ++ right ++ closing :=
    fun function => ⟨function ++ "(", ", ", ")", fun left right => rfl⟩
  cases operator with
  | none => exact infixed Placeholder.operator.text
  | some name =>
    simp only [writeBinary, applyBinary]
    split
    next sign _ => exact infixed sign
    next function _ => exact called function
    next => exact called (asFunction name)
    next => exact called (asFunction name)

theorem exists_writeUnary_eq (operator : Option String) :
    ∃ opening closing, ∀ operand,
      writeUnary operator operand = opening ++ operand ++ closing := by
  cases operator with
  | none => exact ⟨Placeholder.operator.text ++ " ", "", fun operand => by simp [writeUnary]⟩
  | some name =>
    simp only [writeUnary, applyUnary]
    split
    next sign _ => exact ⟨sign, "", fun operand => by simp⟩
    next function _ => exact ⟨function ++ "(", ")", fun operand => rfl⟩
    next => exact ⟨asFunction name ++ "(", ")", fun operand => rfl⟩
    next => exact ⟨asFunction name ++ "(", ")", fun operand => rfl⟩

end Operator

namespace Grouped

variable {pairs pairs' : Nat} {text bare text' bare' : String}

theorem writeUnary (operator : Option String) (operand : Grouped pairs text bare) :
    Grouped pairs (Operator.writeUnary operator text) (Operator.writeUnary operator bare) := by
  obtain ⟨opening, closing, writes⟩ := Operator.exists_writeUnary_eq operator
  rw [writes, writes]
  exact operand.between opening closing

theorem writeBinary (operator : Option String) (left : Grouped pairs text bare)
    (right : Grouped pairs' text' bare') :
    Grouped (pairs + pairs') (Operator.writeBinary operator text text')
      (Operator.writeBinary operator bare bare') := by
  obtain ⟨opening, middle, closing, writes⟩ := Operator.exists_writeBinary_eq operator
  rw [writes, writes]
  simpa using (((left.between opening middle).append right).append (refl closing))

end Grouped

namespace Expr

theorem unsigned_called {function : String} (unsigned : startsWithSign function = false)
    (arguments : String) : startsWithSign (function ++ ("(" ++ arguments)) = false := by
  have bracket : startsWithSign ("(" ++ arguments) = false := by simp [unsigned_iff]
  exact unsigned_append unsigned bracket

theorem unsigned_of_isCallee {function : String} (callee : Operator.isCallee function) :
    startsWithSign function = false := by
  simp only [Operator.isCallee, Bool.and_eq_true, List.all_eq_true] at callee
  rw [unsigned_iff]
  constructor
  · intro minus
    exact absurd (callee.2 _ (List.mem_of_head? minus)) (by decide)
  · intro plus
    exact absurd (callee.2 _ (List.mem_of_head? plus)) (by decide)

theorem unsigned_asFunction (name : String) :
    startsWithSign (Operator.asFunction name) = false := by
  simp [unsigned_iff, Operator.asFunction]

/-- Only what is written between or before operands can start with a sign. -/
theorem unsigned_applyBinary {operator : String} (closed : Operator.isInfix operator = false)
    (left right : String) : startsWithSign (Operator.applyBinary operator left right) = false := by
  simp only [Operator.applyBinary, Operator.isInfix, String.append_assoc] at closed ⊢
  split
  next sign found => simp [found] at closed
  next function found =>
    rcases Operator.binary?_cases (Option.isSome_of_eq_some found) with
      ⟨sign, -, same⟩ | ⟨_, callee, same⟩
    · cases found.symm.trans same
    · cases found.symm.trans same
      exact unsigned_called (unsigned_of_isCallee callee) _
  next => exact unsigned_called (unsigned_asFunction operator) _
  next => exact unsigned_called (unsigned_asFunction operator) _

theorem unsigned_applyUnary {operator : String} (closed : Operator.isPrefix operator = false)
    (operand : String) : startsWithSign (Operator.applyUnary operator operand) = false := by
  simp only [Operator.applyUnary, Operator.isPrefix, String.append_assoc] at closed ⊢
  split
  next sign found => simp [found] at closed
  next function found =>
    rcases Operator.unary?_cases (Option.isSome_of_eq_some found) with
      ⟨sign, -, same⟩ | ⟨_, callee, same⟩
    · cases found.symm.trans same
    · cases found.symm.trans same
      exact unsigned_called (unsigned_of_isCallee callee) _
  next => exact unsigned_called (unsigned_asFunction operator) _
  next => exact unsigned_called (unsigned_asFunction operator) _

def groupedAfterSign : Expr → Bool
  | .integer value => startsWithSign value.literal
  | e => e.isInfix || e.isPrefix

/-- How many operands of a constant stand in parentheses in code. -/
def groupings : Expr → Nat
  | .unaryOp _ operand => operand.groupings + operand.groupedAfterSign.toNat
  | .binaryOp _ left right =>
    (left.groupings + left.isInfix.toNat) + (right.groupings + right.isInfix.toNat)
  | _ => 0

variable (layout : Layout) (position : Position) (scope : Scope)

theorem groupedAfterSign_eq {t : Term} (constant : t.Arithmetic) :
    (ofTerm t).groupedAfterSign = ((ofTerm t).isInfix || (ofTerm t).isPrefix ||
      startsWithSign ((ofTerm t).render layout position scope).text) := by
  cases constant with
  | integer => rfl
  | @unaryOp a operand operator =>
    have read : ofTerm (Construct.unaryOp.term a [.atom operator, operand]) =
      .unaryOp operator (ofTerm operand) := rfl
    rw [read]
    cases prefixed : Operator.isPrefix operator with
    | true => simp [groupedAfterSign, isPrefix, prefixed]
    | false =>
      rw [text_render_unaryOp, Operator.writeUnary, unsigned_applyUnary prefixed]
      simp [groupedAfterSign]
  | @binaryOp a left right operator =>
    have read : ofTerm (Construct.binaryOp.term a [.atom operator, left, right]) =
      .binaryOp operator (ofTerm left) (ofTerm right) := rfl
    rw [read]
    cases infixed : Operator.isInfix operator with
    | true => simp [groupedAfterSign, isInfix, infixed]
    | false =>
      rw [render_binaryOp]
      simp [groupedAfterSign, Operator.writeBinary, unsigned_applyBinary infixed]

theorem grouped_operand {e : Expr} {pairs : Nat} {text bare : String}
    (inner : Grouped pairs text bare) :
    Grouped (pairs + e.isInfix.toNat) (e.operand text) bare := by
  cases infixed : e.isInfix with
  | true => simpa [operand, infixed] using inner.parenthesized
  | false => simpa [operand, infixed] using inner

theorem grouped_prefixOperand {t : Term} (constant : t.Arithmetic) {pairs : Nat} {bare : String}
    (inner : Grouped pairs ((ofTerm t).render layout position scope).text bare) :
    Grouped (pairs + (ofTerm t).groupedAfterSign.toNat)
      ((ofTerm t).prefixOperand ((ofTerm t).render layout position scope).text) bare := by
  rw [groupedAfterSign_eq layout position scope constant]
  generalize ((ofTerm t).render layout position scope).text = text at inner ⊢
  unfold prefixOperand operand
  cases (ofTerm t).isInfix <;> cases (ofTerm t).isPrefix <;> cases startsWithSign text
  all_goals first
    | exact inner
    | exact inner.parenthesized

end Expr

namespace Typespec

variable (layout : Layout) (position : Position) (scope : Scope)

/-- A constant in a type is written as in code, without the pairs that group operands. -/
theorem grouped_text {t : Term} (constant : t.Arithmetic) :
    Grouped (Expr.ofTerm t).groupings ((Expr.ofTerm t).render layout position scope).text
      (ofTerm t).text := by
  induction constant generalizing scope with
  | @integer a value =>
    have code : ((Expr.ofTerm (Construct.integer.term a [.number value])).render
      layout position scope).text = value.literal := rfl
    have type : (ofTerm (Construct.integer.term a [.number value])).text = value.literal := rfl
    rw [code, type]
    exact Grouped.refl value.literal
  | @unaryOp a operand operator inner ih =>
    exact (Expr.grouped_prefixOperand layout position scope inner (ih scope)).writeUnary operator
  | @binaryOp a left right operator _ _ ihLeft ihRight =>
    exact (Expr.grouped_operand (ihLeft scope)).writeBinary operator
      (Expr.grouped_operand (ihRight _))

/-- A constant has one text in code and in types iff none of its operands stand in parentheses. -/
theorem text_arithmetic {t : Term} (constant : t.Arithmetic) :
    let code := ((Expr.ofTerm t).render layout position scope).text
    Grouped (Expr.ofTerm t).groupings code (ofTerm t).text ∧
      ((ofTerm t).text = code ↔ (Expr.ofTerm t).groupings = 0) :=
  have grouped := grouped_text layout position scope constant
  ⟨grouped, grouped.eq_iff⟩

theorem text_arithmetic_difference :
    let number := fun value : Int64 => Construct.integer.term (.list []) [.number (.integer value)]
    let op := fun operator left right =>
      Construct.binaryOp.term (.list []) [.atom operator, left, right]
    let difference := op "-" (number 1) (op "-" (number 2) (number 3))
    difference.Arithmetic ∧ (Expr.ofTerm difference).groupings = 1 ∧
      Grouped 1 ((Expr.ofTerm difference).render {} .expression ∅).text
        (ofTerm difference).text := by
  intro number op difference
  have constant : difference.Arithmetic := .binaryOp .integer (.binaryOp .integer .integer)
  exact ⟨constant, rfl, (text_arithmetic {} .expression ∅ constant).1⟩

/-- A product of a sum reads as a sum, and a negated sign as an operator of two signs. -/
theorem text_ofTerm_product_of_sum :
    let number := fun value : Int64 => Construct.integer.term (.list []) [.number (.integer value)]
    let op := fun operator left right =>
      Construct.binaryOp.term (.list []) [.atom operator, left, right]
    let product := op "*" (op "+" (number 1) (number 2)) (number 3)
    let negation := Construct.unaryOp.term (.list []) [.atom "-", number (-1)]
    product.Arithmetic ∧ (ofTerm product).text = "1 + 2 * 3" ∧
      ((Expr.ofTerm product).render {} .expression ∅).text = "(1 + 2) * 3" ∧
    negation.Arithmetic ∧ (ofTerm negation).text = "--1" ∧
      ((Expr.ofTerm negation).render {} .expression ∅).text = "-(-1)" := by
  intro number op product negation
  have sum : (op "+" (number 1) (number 2)).Arithmetic := .binaryOp .integer .integer
  exact ⟨.binaryOp sum .integer, by decide, by decide, .unaryOp .integer, by decide, by decide⟩

variable {operator operator' : String}

/-- In types, both groupings of two operators have one text. -/
theorem text_regrouped (infixed : Operator.isInfix operator) (infixed' : Operator.isInfix operator')
    (a a' b b' left middle right : Term) :
    let leftFirst := Construct.binaryOp.term a [.atom operator',
      Construct.binaryOp.term b [.atom operator, left, middle], right]
    let rightFirst := Construct.binaryOp.term a' [.atom operator, left,
      Construct.binaryOp.term b' [.atom operator', middle, right]]
    (ofTerm leftFirst).text = (ofTerm rightFirst).text := by
  intro leftFirst rightFirst
  obtain ⟨sign, writes⟩ := Expr.writeBinary_of_isInfixed infixed
  obtain ⟨sign', writes'⟩ := Expr.writeBinary_of_isInfixed infixed'
  have written : ∀ (a x y : Term) (operator : String),
    (ofTerm (Construct.binaryOp.term a [.atom operator, x, y])).text =
      Operator.writeBinary operator (ofTerm x).text (ofTerm y).text := fun _ _ _ _ => rfl
  simp only [leftFirst, rightFirst, written, writes, writes', String.append_assoc]

/-- A sign before two operands reads as the sign of the first one. -/
theorem text_prefixed_regrouped (infixed : Operator.isInfix operator) {sign : String}
    (prefixed : Operator.isPrefix sign) (a a' b b' left right : Term) :
    let prefixFirst := Construct.unaryOp.term a [.atom sign,
      Construct.binaryOp.term b [.atom operator, left, right]]
    let infixFirst := Construct.binaryOp.term a' [.atom operator,
      Construct.unaryOp.term b' [.atom sign, left], right]
    (ofTerm prefixFirst).text = (ofTerm infixFirst).text := by
  intro prefixFirst infixFirst
  obtain ⟨infixSign, writes⟩ := Expr.writeBinary_of_isInfixed infixed
  obtain ⟨prefixSign, writes'⟩ := Expr.writeUnary_of_prefixed prefixed
  have readFirst : (ofTerm prefixFirst).text = Operator.writeUnary sign
    (Operator.writeBinary operator (ofTerm left).text (ofTerm right).text) := rfl
  have readSecond : (ofTerm infixFirst).text = Operator.writeBinary operator
    (Operator.writeUnary sign (ofTerm left).text) (ofTerm right).text := rfl
  simp only [readFirst, readSecond, writes, writes', String.append_assoc]

end Typespec

end Legible
