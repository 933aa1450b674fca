import Legible.Proofs.Expr.Reads
import Legible.Proofs.Guard.Text

/-!
Tests of guards: their terms, their formulas and what their texts read as.
-/

set_option autoImplicit false

namespace Legible.Guard

def Formula.binary (operator : String) (left right : Formula) : Formula :=
  match Operator.binary? operator with
  | some (.infixed sign) => .infixed sign left right
  | some (.called function) => .called function [left, right]
  | some (.prefixed _) | none => .called (Operator.asFunction operator) [left, right]

def Formula.unary (operator : String) (operand : Formula) : Formula :=
  match Operator.unary? operator with
  | some (.prefixed sign) => .prefixed sign operand
  | some (.called function) => .called function [operand]
  | some (.infixed _) | none => .called (Operator.asFunction operator) [operand]

/-- Operators with operands down to numbers, truth values, variables and local calls, with the
annotations of constructs. -/
inductive Test where
  | integer (a : Term) (value : Nat)
  | constant (a : Term) (value : Bool)
  | variable (a : Term) (name : String) (spelled : Spelling.isVariable name)
      (free : Spelling.ofVariable name ∉ Spelling.reserved)
  | call (a callee : Term) (function : String) (named : callee.name? = some function)
      (bare : Spelling.isIdentifier function) (free : function ∉ Spelling.reserved)
      (arguments : List Test)
  | binary (a : Term) (operator : String) (known : (Operator.binary? operator).isSome)
      (left right : Test)
  | unary (a : Term) (operator : String) (known : (Operator.unary? operator).isSome)
      (operand : Test)

namespace Test

mutual

def term : Test → Term
  | .integer a value => Construct.integer.term a [.number (.ofNat value)]
  | .constant a value => Construct.atom.term a [.atom (toString value)]
  | .variable a name _ _ => Construct.variable.term a [.atom name]
  | .call a callee _ _ _ _ arguments => Construct.call.term a [callee, .list (terms arguments)]
  | .binary a operator _ left right =>
    Construct.binaryOp.term a [.atom operator, left.term, right.term]
  | .unary a operator _ operand => Construct.unaryOp.term a [.atom operator, operand.term]

def terms : List Test → List Term
  | [] => []
  | test :: rest => test.term :: terms rest

end

mutual

def formula : Test → Formula
  | .integer _ value => .integer value
  | .constant _ value => .constant value
  | .variable _ name _ _ => .variable name
  | .call _ _ function _ _ _ arguments => .called function (formulas arguments)
  | .binary _ operator _ left right => .binary operator left.formula right.formula
  | .unary _ operator _ operand => .unary operator operand.formula

def formulas : List Test → List Formula
  | [] => []
  | test :: rest => test.formula :: formulas rest

end

end Test

/-- An expression whose text reads as a formula. Without operators between operands, it does so
whatever follows it. -/
structure Spelled (e : Expr) (text : String) (f : Formula) : Prop where
  formula : SpellsFormula text f
  operand : e.isInfix = false → SpellsOperand text f

namespace Spelled

variable {e : Expr} {text : String} {f : Formula}

theorem of_operand (operand : SpellsOperand text f) : Spelled e text f :=
  ⟨operand.formula, fun _ => operand⟩

/-- As an operand, an expression reads as itself whatever follows it. -/
theorem asOperand (spelled : Spelled e text f) : SpellsOperand (e.operand text) f := by
  unfold Expr.operand
  split
  · exact spelled.formula.parenthesized
  next closed => exact spelled.operand (Bool.eq_false_iff.2 closed)

theorem asPrefixOperand (spelled : Spelled e text f) :
    SpellsOperand (e.prefixOperand text) f ∧
      Expr.startsWithSign (e.prefixOperand text) = false := by
  have apart : Expr.startsWithSign (parenthesized text) = false := by
    rw [← joinsSign_eq, toList_parenthesized]
    rfl
  unfold Expr.prefixOperand
  split
  · exact ⟨spelled.formula.parenthesized, apart⟩
  next bare =>
    refine ⟨spelled.asOperand, ?_⟩
    simp only [Bool.or_eq_true, not_or, Bool.not_eq_true] at bare
    unfold Expr.operand
    split
    · exact apart
    · exact bare.2

end Spelled

theorem leaf?_eq {text : String} {reading : Reading}
    (leaf : Operator.leaf? text.toList = some reading) : leaf? text = Formula.ofLeaf? reading := by
  -- Truth values are reserved words, which a reader of operators takes for no leaves.
  have noTrue : text ≠ "true" := by
    rintro rfl
    cases leaf
  have noFalse : text ≠ "false" := by
    rintro rfl
    cases leaf
  rw [leaf?, if_neg noTrue, if_neg noFalse, leaf, Option.bind_some]

theorem spells_digits (value : Nat) :
    SpellsOperand (String.ofList (Decimal.digits value)) (.integer value) := by
  apply SpellsOperand.of_word
  · rw [String.toList_ofList]
    exact .of_operatorWord (Decimal.digits_ne_nil value) Operator.wordChar_of_mem_digits
  · have leaf : Operator.leaf? (String.ofList (Decimal.digits value)).toList =
        some (.number value) := by
      rw [String.toList_ofList, Operator.leaf?_digits]
    exact leaf?_eq leaf

theorem spells_variable {name : String} (spelled : Spelling.isVariable name)
    (free : Spelling.ofVariable name ∉ Spelling.reserved) :
    SpellsOperand (Spelling.ofVariable name) (.variable name) := by
  have leaf := Operator.leaf?_ofVariable spelled free
  have nonempty : (Spelling.ofVariable name).toList ≠ [] := by
    intro empty
    rw [empty] at leaf
    cases leaf
  exact .of_word (.of_operatorWord nonempty (Operator.wordChar_of_mem_ofVariable spelled))
    (leaf?_eq leaf)

/-- No operator is called with a reserved word. -/
theorem called_ne_reserved : ∀ entry ∈ Operator.binaryTable ++ Operator.unaryTable,
    ∀ word ∈ Spelling.reserved, entry.2 ≠ .called word := by
  decide

theorem IsWord.of_isCallee {function : String} (callee : Operator.isCallee function) :
    IsWord function.toList := by
  simp only [Operator.isCallee, Bool.and_eq_true, Bool.not_eq_true', List.isEmpty_eq_false_iff,
    List.all_eq_true] at callee
  exact .of_operatorWord callee.1 callee.2

theorem SpellsOperand.of_called {table : List (String × Operator)}
    (known : table ⊆ Operator.binaryTable ++ Operator.unaryTable) {operator function : String}
    (found : table.lookup operator = some (.called function))
    (callee : Operator.isCallee function) {texts : List String} {arguments : List Formula}
    (each : List.Forall₂ SpellsFormula texts arguments) :
    SpellsOperand (function ++ parenthesized (", ".intercalate texts))
      (.called function arguments) := by
  have free : function ∉ Spelling.reserved := fun member =>
    called_ne_reserved _ (known (Operator.mem_of_lookup found)) function member rfl
  exact .call (.of_isCallee callee) free each

/-- Operators between operands leave a level, and all others an operand. -/
theorem spells_binary {operator left right : String} {f g : Formula}
    (known : (Operator.binary? operator).isSome) (first : SpellsOperand left f)
    (second : SpellsOperand right g) :
    SpellsFormula (Operator.applyBinary operator left right) (.binary operator f g) ∧
      (Operator.isInfix operator = false →
        SpellsOperand (Operator.applyBinary operator left right) (.binary operator f g)) := by
  rcases Operator.binary?_cases known with ⟨sign, isSign, found⟩ | ⟨function, callee, found⟩
  · simp only [Formula.binary, Operator.applyBinary, Operator.isInfix, found]
    refine ⟨first.infixed isSign second, fun closed => ?_⟩
    cases closed
  · have called := SpellsOperand.of_called (List.subset_append_left ..) found callee
      (.cons first.formula (.cons second.formula .nil))
    have operand : SpellsOperand (Operator.applyBinary operator left right)
        (.binary operator f g) := by
      simpa [Formula.binary, Operator.applyBinary, found, parenthesized, String.append_assoc]
        using called
    exact ⟨operand.formula, fun _ => operand⟩

theorem spells_unary {operator text : String} {f : Formula}
    (known : (Operator.unary? operator).isSome) (inner : SpellsOperand text f)
    (apart : Expr.startsWithSign text = false) :
    SpellsOperand (Operator.applyUnary operator text) (.unary operator f) := by
  rcases Operator.unary?_cases known with ⟨sign, isSign, found⟩ | ⟨function, callee, found⟩
  · simp only [Formula.unary, Operator.applyUnary, found]
    simp only [List.mem_cons, List.not_mem_nil, or_false] at isSign
    rcases isSign with rfl | rfl | rfl
    · exact inner.signed (.inl rfl) apart
    · exact inner.signed (.inr rfl) apart
    · exact inner.not
  · have called := SpellsOperand.of_called (List.subset_append_right ..) found callee
      (.cons inner.formula .nil)
    simpa [Formula.unary, Operator.applyUnary, found, parenthesized, String.append_assoc]
      using called

namespace Test

variable (layout : Layout)

mutual

theorem spelled (test : Test) (position : Position) {scope : Scope}
    (free : scope.pinning = false) :
    Spelled (Expr.ofTerm test.term) ((Expr.ofTerm test.term).render layout position scope).text
      test.formula := by
  cases test with
  | integer a value =>
    have text : ((Expr.ofTerm (integer a value).term).render layout position scope).text =
      String.ofList (Decimal.digits value) := Number.literal_ofNat value
    rw [text]
    exact .of_operand (spells_digits value)
  | constant a value =>
    have text : ((Expr.ofTerm (constant a value).term).render layout position scope).text =
      toString value := by cases value <;> rfl
    rw [text]
    refine .of_operand ?_
    cases value with
    | false => exact .of_word (by decide) rfl
    | true => exact .of_word (by decide) rfl
  | «variable» a name isVariable notReserved =>
    have text : ((Expr.ofTerm (Test.variable a name isVariable notReserved).term).render layout
      position scope).text = Spelling.ofVariable name :=
        Rendering.text_ofVariable_of_free name free
    rw [text]
    exact .of_operand (spells_variable isVariable notReserved)
  | call a callee function named bare notReserved arguments =>
    have each := allSpelled arguments position free
    have text : ((Expr.localCall function ((terms arguments).map Expr.ofTerm)).render layout position
      scope).text = Spelling.ofFunction function ++ parenthesized _ := rfl
    rw [term, Expr.ofTerm_localCall named, text, Spelling.ofFunction_of_isIdentifier bare, formula]
    exact .of_operand (.call (.of_isIdentifier bare) notReserved each)
  | binary a operator known left right =>
    -- The right operand is rendered in the scope that the left one leaves, which pins no more.
    have stillFree : (scope.thread
        ((Expr.ofTerm left.term).render layout position scope).declared).pinning = false := by
      simpa using free
    have first := (spelled left position free).asOperand
    have second := (spelled right position stillFree).asOperand
    obtain ⟨formula, operand⟩ := spells_binary known first second
    exact ⟨formula, operand⟩
  | unary a operator known operand =>
    obtain ⟨inner, apart⟩ := (spelled operand position free).asPrefixOperand
    exact .of_operand (spells_unary known inner apart)

theorem allSpelled (tests : List Test) (position : Position) {scope : Scope}
    (free : scope.pinning = false) :
    List.Forall₂ SpellsFormula
      (Expr.renderAll layout ((terms tests).map Expr.ofTerm) position scope).texts
      (formulas tests) := by
  cases tests with
  | nil => exact .nil
  | cons test rest =>
    have first := spelled test position free
    exact .cons first.formula (allSpelled rest position (by simpa using free))

end

end Test

end Legible.Guard
