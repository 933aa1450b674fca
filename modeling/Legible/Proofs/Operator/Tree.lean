import Legible.Expr.Reading
import Legible.Expr.Render
import Legible.Proofs.Operator.Reader
import Legible.Proofs.Term.Subterms

/-!
Trees of operators over numbers and variables: their terms, their texts and what they should read
as.

The text of a tree is said without scope or position. Rendering yields it in every scope that pins
nothing.
-/

set_option autoImplicit false

namespace Legible

def Number.ofNat (value : Nat) : Number :=
  if Number.fits value then .integer (Int64.ofInt value)
  else .beyond (String.ofList (Decimal.digits value))

theorem Number.literal_ofNat (value : Nat) :
    (Number.ofNat value).literal = String.ofList (Decimal.digits value) := by
  unfold ofNat
  split
  next small =>
    have small : (value : Int) < 2 ^ 63 := by
      have greatest : Int64.maxValue.toInt = 2 ^ 63 - 1 := Int64.toInt_maxValue
      simp only [fits, greatest, Bool.and_eq_true, decide_eq_true_eq] at small
      omega
    have kept : (Int64.ofInt value).toInt = value := Int64.toInt_ofInt_of_le (by omega) small
    simp only [literal, kept]
    rfl
  next => rfl

/-- Operators with operands down to numbers and variables, with the annotations of constructs. -/
inductive OperatorTree where
  | integer (a : Term) (value : Nat)
  | variable (a : Term) (name : String) (spelled : Spelling.isVariable name)
      (free : Spelling.ofVariable name ∉ Spelling.reserved)
  | binary (a : Term) (operator : String) (known : (Operator.binary? operator).isSome)
      (left right : OperatorTree)
  | unary (a : Term) (operator : String) (known : (Operator.unary? operator).isSome)
      (operand : OperatorTree)

namespace OperatorTree

def term : OperatorTree → Term
  | .integer a value => Construct.integer.term a [.number (.ofNat value)]
  | .variable a name _ _ => Construct.variable.term a [.atom name]
  | .binary a operator _ left right =>
    Construct.binaryOp.term a [.atom operator, left.term, right.term]
  | .unary a operator _ operand => Construct.unaryOp.term a [.atom operator, operand.term]

def isInfix : OperatorTree → Bool
  | .binary _ operator _ _ _ => Operator.isInfix operator
  | _ => false

def isPrefix : OperatorTree → Bool
  | .unary _ operator _ _ => Operator.isPrefix operator
  | _ => false

def operand (t : OperatorTree) (text : String) : String :=
  if t.isInfix then parenthesized text else text

def prefixOperand (t : OperatorTree) (text : String) : String :=
  if t.isPrefix || Expr.startsWithSign text then parenthesized text else t.operand text

def text : OperatorTree → String
  | .integer _ value => String.ofList (Decimal.digits value)
  | .variable _ name _ _ => Spelling.ofVariable name
  | .binary _ operator _ left right =>
    Operator.applyBinary operator (left.operand left.text) (right.operand right.text)
  | .unary _ operator _ operand =>
    Operator.applyUnary operator (operand.prefixOperand operand.text)

theorem isInfix_ofTerm (t : OperatorTree) : (Expr.ofTerm t.term).isInfix = t.isInfix := by
  cases t <;> rfl

theorem isPrefix_ofTerm (t : OperatorTree) : (Expr.ofTerm t.term).isPrefix = t.isPrefix := by
  cases t <;> rfl

theorem operand_ofTerm (t : OperatorTree) (text : String) :
    (Expr.ofTerm t.term).operand text = t.operand text := by
  rw [Expr.operand, operand, isInfix_ofTerm]

theorem prefixOperand_ofTerm (t : OperatorTree) (text : String) :
    (Expr.ofTerm t.term).prefixOperand text = t.prefixOperand text := by
  rw [Expr.prefixOperand, prefixOperand, isPrefix_ofTerm, operand_ofTerm]

theorem text_render (layout : Layout) (t : OperatorTree) (position : Position) {scope : Scope}
    (free : scope.pinning = false) :
    ((Expr.ofTerm t.term).render layout position scope).text = t.text := by
  induction t generalizing scope with
  | integer a value => exact Number.literal_ofNat value
  | «variable» a name => exact Rendering.text_ofVariable_of_free name free
  | binary a operator known left right ihLeft ihRight =>
    have first := ihLeft free
    have stillFree : (scope.thread
        ((Expr.ofTerm left.term).render layout position scope).declared).pinning = false := by
      simpa using free
    have second := ihRight stillFree
    rw [text, ← operand_ofTerm, ← operand_ofTerm, ← first, ← second]
    rfl
  | unary a operator known operand ih =>
    rw [text, ← prefixOperand_ofTerm, ← ih free]
    rfl

def reading : OperatorTree → Reading
  | .integer _ value => .number value
  | .variable _ name _ _ => .variable name
  | .binary _ operator _ left right =>
    match Operator.binary? operator with
    | some (.infixed sign) => .row left.reading [(sign, right.reading)]
    | some (.called function) => .called function [left.reading, right.reading]
    | some (.prefixed _) | none =>
      .called (Operator.asFunction operator) [left.reading, right.reading]
  | .unary _ operator _ operand =>
    match Operator.unary? operator with
    | some (.prefixed sign) => .prefixed sign operand.reading
    | some (.called function) => .called function [operand.reading]
    | some (.infixed _) | none => .called (Operator.asFunction operator) [operand.reading]

theorem reading_infixed {a : Term} {operator sign : String} {known} {left right : OperatorTree}
    (found : Operator.binary? operator = some (.infixed sign)) :
    (binary a operator known left right).reading = .row left.reading [(sign, right.reading)] := by
  simp only [reading, found]

theorem reading_call₂ {a : Term} {operator function : String} {known} {left right : OperatorTree}
    (found : Operator.binary? operator = some (.called function)) :
    (binary a operator known left right).reading =
      .called function [left.reading, right.reading] := by
  simp only [reading, found]

theorem reading_prefixed {a : Term} {operator sign : String} {known} {operand : OperatorTree}
    (found : Operator.unary? operator = some (.prefixed sign)) :
    (unary a operator known operand).reading = .prefixed sign operand.reading := by
  simp only [reading, found]

theorem reading_call {a : Term} {operator function : String} {known} {operand : OperatorTree}
    (found : Operator.unary? operator = some (.called function)) :
    (unary a operator known operand).reading = .called function [operand.reading] := by
  simp only [reading, found]

theorem isSingle_reading (t : OperatorTree) : t.reading.isSingle := by
  induction t with
  | integer | «variable» => rfl
  | binary a operator known left right ihLeft ihRight =>
    rcases Operator.binary?_cases known with ⟨sign, -, found⟩ | ⟨function, -, found⟩
    · simp [reading_infixed found, Reading.isSingle, Reading.laterSingle, ihLeft, ihRight]
    · simp [reading_call₂ found, Reading.isSingle, Reading.allSingle, ihLeft, ihRight]
  | unary a operator known operand ih =>
    rcases Operator.unary?_cases known with ⟨sign, -, found⟩ | ⟨function, -, found⟩
    · simp [reading_prefixed found, Reading.isSingle, ih]
    · simp [reading_call found, Reading.isSingle, Reading.allSingle, ih]

/-- The same tree, up to annotations and to operators that are written alike. -/
inductive Same : OperatorTree → OperatorTree → Prop
  | integer {a b : Term} {value : Nat} : Same (.integer a value) (.integer b value)
  | variable {a b : Term} {name : String} {spelled free spelled' free'} :
      Same (.variable a name spelled free) (.variable b name spelled' free')
  | binary {a b : Term} {operator operator' : String} {known known'}
      {left left' right right' : OperatorTree} :
      Operator.binary? operator = Operator.binary? operator' → Same left left' →
      Same right right' →
      Same (.binary a operator known left right) (.binary b operator' known' left' right')
  | unary {a b : Term} {operator operator' : String} {known known'}
      {operand operand' : OperatorTree} :
      Operator.unary? operator = Operator.unary? operator' → Same operand operand' →
      Same (.unary a operator known operand) (.unary b operator' known' operand')

theorem Same.reading_eq {t u : OperatorTree} (same : Same t u) : t.reading = u.reading := by
  induction same with
  | integer | «variable» => rfl
  | @binary a b operator operator' known known' left left' right right' alike _ _ ihLeft ihRight =>
    rcases Operator.binary?_cases known' with ⟨sign, -, found⟩ | ⟨function, -, found⟩
    · rw [reading_infixed found, reading_infixed (alike.trans found), ihLeft, ihRight]
    · rw [reading_call₂ found, reading_call₂ (alike.trans found), ihLeft, ihRight]
  | @unary a b operator operator' known known' operand operand' alike _ ih =>
    rcases Operator.unary?_cases known' with ⟨sign, -, found⟩ | ⟨function, -, found⟩
    · rw [reading_prefixed found, reading_prefixed (alike.trans found), ih]
    · rw [reading_call found, reading_call (alike.trans found), ih]

/-- Trees that are written alike also stand alike in parentheses. -/
theorem Same.text_eq {t u : OperatorTree} (same : Same t u) :
    t.text = u.text ∧ t.isInfix = u.isInfix ∧ t.isPrefix = u.isPrefix := by
  induction same with
  | integer | «variable» => exact ⟨rfl, rfl, rfl⟩
  | @binary a b operator operator' known known' left left' right right' alike _ _ ihLeft ihRight =>
    have infixed : Operator.isInfix operator = Operator.isInfix operator' := by
      simp only [Operator.isInfix, alike]
    refine ⟨?_, infixed, rfl⟩
    obtain ⟨leftText, leftInfix, -⟩ := ihLeft
    obtain ⟨rightText, rightInfix, -⟩ := ihRight
    simp only [text, operand, leftText, leftInfix, rightText, rightInfix]
    rcases Operator.binary?_cases known' with ⟨sign, -, found⟩ | ⟨function, -, found⟩
    · simp only [Operator.applyBinary, found, alike]
    · simp only [Operator.applyBinary, found, alike]
  | @unary a b operator operator' known known' operand operand' alike _ ih =>
    have prefixed : Operator.isPrefix operator = Operator.isPrefix operator' := by
      simp only [Operator.isPrefix, alike]
    refine ⟨?_, rfl, prefixed⟩
    obtain ⟨operandText, operandInfix, operandPrefix⟩ := ih
    simp only [text, prefixOperand, OperatorTree.operand, operandText, operandInfix, operandPrefix]
    rcases Operator.unary?_cases known' with ⟨sign, -, found⟩ | ⟨function, -, found⟩
    · simp only [Operator.applyUnary, found, alike]
    · simp only [Operator.applyUnary, found, alike]

inductive ReadsAs : OperatorTree → Reading → Prop
  | integer {a : Term} {value : Nat} : ReadsAs (.integer a value) (.number value)
  | variable {a : Term} {name : String} {spelled free} :
      ReadsAs (.variable a name spelled free) (.variable name)
  | infixed {a : Term} {operator sign : String} {known} {left right : OperatorTree}
      {first second : Reading} : Operator.binary? operator = some (.infixed sign) →
      ReadsAs left first → ReadsAs right second →
      ReadsAs (.binary a operator known left right) (.row first [(sign, second)])
  | call₂ {a : Term} {operator function : String} {known} {left right : OperatorTree}
      {first second : Reading} : Operator.binary? operator = some (.called function) →
      ReadsAs left first → ReadsAs right second →
      ReadsAs (.binary a operator known left right) (.called function [first, second])
  | prefixed {a : Term} {operator sign : String} {known} {operand : OperatorTree}
      {inner : Reading} : Operator.unary? operator = some (.prefixed sign) →
      ReadsAs operand inner → ReadsAs (.unary a operator known operand) (.prefixed sign inner)
  | call {a : Term} {operator function : String} {known} {operand : OperatorTree}
      {inner : Reading} : Operator.unary? operator = some (.called function) →
      ReadsAs operand inner → ReadsAs (.unary a operator known operand) (.called function [inner])

theorem readsAs (t : OperatorTree) : ReadsAs t t.reading := by
  induction t with
  | integer => exact .integer
  | «variable» => exact .variable
  | binary a operator known left right ihLeft ihRight =>
    rcases Operator.binary?_cases known with ⟨sign, -, found⟩ | ⟨function, -, found⟩
    · rw [reading_infixed found]
      exact .infixed found ihLeft ihRight
    · rw [reading_call₂ found]
      exact .call₂ found ihLeft ihRight
  | unary a operator known operand ih =>
    rcases Operator.unary?_cases known with ⟨sign, -, found⟩ | ⟨function, -, found⟩
    · rw [reading_prefixed found]
      exact .prefixed found ih
    · rw [reading_call found]
      exact .call found ih

theorem same_of_readsAs {t u : OperatorTree} {reading : Reading} (first : ReadsAs t reading)
    (second : ReadsAs u reading) : Same t u := by
  -- The reading fixes the form of both trees, so of the second one a single case is left.
  induction first generalizing u with
  | integer =>
    cases second
    exact .integer
  | «variable» =>
    cases second
    exact .variable
  | infixed found _ _ ihLeft ihRight =>
    cases second with
    | infixed found' left right =>
      exact .binary (found.trans found'.symm) (ihLeft left) (ihRight right)
  | call₂ found _ _ ihLeft ihRight =>
    cases second with
    | call₂ found' left right =>
      exact .binary (found.trans found'.symm) (ihLeft left) (ihRight right)
  | prefixed found _ ih =>
    cases second with
    | prefixed found' operand => exact .unary (found.trans found'.symm) (ih operand)
  | call found _ ih =>
    cases second with
    | call found' operand => exact .unary (found.trans found'.symm) (ih operand)

/-- A reading tells all of the tree. -/
theorem reading_eq_iff {t u : OperatorTree} : t.reading = u.reading ↔ Same t u := by
  constructor
  · intro eq
    have second := readsAs u
    rw [← eq] at second
    exact same_of_readsAs (readsAs t) second
  · exact Same.reading_eq

end OperatorTree

end Legible
