import Legible.Proofs.Expr.Congruence

/-!
Operands whose grouping is lost.

An operand stands in parentheses if it is itself an operator between two operands. A match, a block
of one expression and what is called are written as they are, so that an operator inside them takes
its operands from outside: each theorem here gives two programs with one text.
-/

set_option autoImplicit false

namespace Legible

/-- A term behind blocks of one expression each, which are given by their annotations. -/
def Term.inBlocks (t : Term) : List Term → Term
  | [] => t
  | a :: blocks => Construct.block.term a [.list [t.inBlocks blocks]]

def ViewCongruence.closed : ViewCongruence :=
  { ViewCongruence.any with
    SameNames := fun declared declared' => declared = ∅ ∧ declared' = ∅
    empty := ⟨rfl, rfl⟩
    union := by
      rintro _ _ _ _ ⟨rfl, rfl⟩ ⟨rfl, rfl⟩
      exact ⟨Scope.union_empty _, Scope.union_empty _⟩
    scope_of_names := fun _ => trivial
    thread := fun _ _ => trivial
    join := fun _ _ => trivial
    patternScope := fun _ _ _ => trivial }

namespace Expr

section
variable (layout : Layout) (position : Position) (scope : Scope)

theorem render_binaryOp (operator : Option String) (left right : Expr) :
    (binaryOp operator left right).render layout position scope =
      let first := left.render layout position scope
      let second := right.render layout position (scope.thread first.declared)
      { text := Operator.writeBinary operator (left.operand first.text) (right.operand second.text)
        declared := first.declared ∪ second.declared
        warnings := first.warnings ++ second.warnings } := rfl

theorem render_valueCall (function : Expr) (arguments : List Expr) :
    (valueCall function arguments).render layout position scope =
      let first := function.render layout position scope
      let inner := (renderAll layout arguments position (scope.thread first.declared)).join ", "
      { text := first.text ++ "." ++ parenthesized inner.text
        declared := first.declared ∪ inner.declared
        warnings := first.warnings ++ inner.warnings } := rfl

theorem text_render_unaryOp (operator : Option String) (operand : Expr) :
    ((unaryOp operator operand).render layout position scope).text =
      Operator.writeUnary operator
        (operand.prefixOperand (operand.render layout position scope).text) := rfl

theorem text_render_matching (pattern value : Expr) :
    ((matching pattern value).render layout position scope).text =
      let right := value.render layout position scope
      (pattern.render layout .pattern (patternScope position scope right.declared)).text ++
        " = " ++ right.text := rfl

/-- A block of one expression leaves no trace. -/
theorem render_block_singleton (e : Expr) :
    (block [e]).render layout position scope = e.render layout position scope := by
  have written : (block [e]).render layout position scope =
    (Sequence.cons (e.render layout position scope) .empty).join "\n" := rfl
  rw [written]
  simp [Sequence.join, Sequence.cons, Sequence.empty]

theorem render_inBlocks (t : Term) (blocks : List Term) :
    (ofTerm (t.inBlocks blocks)).render layout position scope =
      (ofTerm t).render layout position scope := by
  induction blocks with
  | nil => rfl
  | cons a blocks ih =>
    have read : ofTerm (t.inBlocks (a :: blocks)) = .block [ofTerm (t.inBlocks blocks)] := rfl
    rw [read, render_block_singleton, ih]

end

theorem operand_of_closed {e : Expr} (closed : e.isInfix = false) (text : String) :
    e.operand text = text := by
  simp [operand, closed]

theorem operand_inBlocks (t : Term) {blocks : List Term} (some : blocks ≠ []) (text : String) :
    (ofTerm (t.inBlocks blocks)).operand text = text := by
  cases blocks with
  | nil => exact absurd rfl some
  | cons => rfl

theorem prefixOperand_inBlocks (t : Term) {blocks : List Term} (some : blocks ≠ [])
    {text : String} (unsigned : startsWithSign text = false) :
    (ofTerm (t.inBlocks blocks)).prefixOperand text = text := by
  cases blocks with
  | nil => exact absurd rfl some
  | cons =>
    unfold prefixOperand
    rw [unsigned]
    rfl

theorem prefixOperand_of_unsigned {e : Expr} (notPrefixed : e.isPrefix = false) {text : String}
    (unsigned : startsWithSign (e.operand text) = false) :
    e.prefixOperand text = e.operand text := by
  unfold prefixOperand
  unfold operand at unsigned ⊢
  split
  next signed =>
    rw [notPrefixed, Bool.false_or] at signed
    split at unsigned
    next infixed => rw [if_pos infixed]
    next => exact absurd signed (by simp [unsigned])
  next => rfl

theorem unsigned_iff (text : String) : startsWithSign text = false ↔
    text.toList.head? ≠ some '-' ∧ text.toList.head? ≠ some '+' := by
  rw [Bool.eq_false_iff, ne_eq, startsWithSign_iff, not_or]

theorem unsigned_append {text later : String} (unsigned : startsWithSign text = false)
    (unsignedLater : startsWithSign later = false) : startsWithSign (text ++ later) = false := by
  rw [unsigned_iff] at unsigned unsignedLater ⊢
  rw [String.toList_append]
  cases chars : text.toList with
  | nil => simpa using unsignedLater
  | cons first rest => simpa [chars] using unsigned

theorem startsWithSign_append {text : String} (unsigned : startsWithSign text = false)
    (later : String) : startsWithSign (text ++ (" " ++ later)) = false := by
  have blank : startsWithSign (" " ++ later) = false := by simp [unsigned_iff]
  exact unsigned_append unsigned blank

theorem writeBinary_of_isInfixed {operator : String} (infixed : Operator.isInfix operator) :
    ∃ sign, ∀ left right, Operator.writeBinary operator left right =
      left ++ " " ++ sign ++ " " ++ right := by
  simp only [Operator.isInfix] at infixed
  split at infixed
  next sign found =>
    exact ⟨sign, fun _ _ => by simp [Operator.writeBinary, Operator.applyBinary, found]⟩
  next => cases infixed

theorem writeUnary_of_prefixed {operator : String} (prefixed : Operator.isPrefix operator) :
    ∃ sign, ∀ operand, Operator.writeUnary operator operand = sign ++ operand := by
  simp only [Operator.isPrefix] at prefixed
  split at prefixed
  next sign found =>
    exact ⟨sign, fun _ => by simp [Operator.writeUnary, Operator.applyUnary, found]⟩
  next => cases prefixed

/-- What has no variables is written alike in all scopes, and declares nothing. -/
theorem render_of_closed (layout : Layout) {e : Expr} (closed : ∀ name, ¬ e.Mentions name)
    (position position' : Position) (scope scope' : Scope) :
    (e.render layout position scope).text = (e.render layout position' scope').text ∧
      (e.render layout position scope).declared = ∅ := by
  have related : Related (.equal layout) .closed (e.render layout position scope)
      (e.render layout position' scope') :=
    e.congruent (.of_mentions e (fun name mentions => absurd mentions (closed name))
      fun e noVariable => ⟨fun _ _ => rfl, rfl, fun name eq => absurd eq (noVariable name)⟩)
      trivial trivial
  exact ⟨related.text, related.names.1⟩

variable (layout : Layout) (position : Position) (scope : Scope)
variable {operator operator' : String}

/-- Blocks around one expression lose the grouping of what they hold: the same text, the same names
and the same warnings come of both groupings of two operators. -/
theorem render_regrouped (infixed : Operator.isInfix operator)
    (infixed' : Operator.isInfix operator') {blocks blocks' : List Term} (some : blocks ≠ [])
    (some' : blocks' ≠ []) (a a' b b' left middle right : Term) :
    let leftFirst := Construct.binaryOp.term a [.atom operator',
      (Construct.binaryOp.term b [.atom operator, left, middle]).inBlocks blocks, right]
    let rightFirst := Construct.binaryOp.term a' [.atom operator, left,
      (Construct.binaryOp.term b' [.atom operator', middle, right]).inBlocks blocks']
    (ofTerm leftFirst).render layout position scope =
      (ofTerm rightFirst).render layout position scope := by
  intro leftFirst rightFirst
  obtain ⟨sign, writes⟩ := writeBinary_of_isInfixed infixed
  obtain ⟨sign', writes'⟩ := writeBinary_of_isInfixed infixed'
  have read : ∀ (a x y : Term) (operator : String),
    ofTerm (Construct.binaryOp.term a [.atom operator, x, y]) =
      .binaryOp operator (ofTerm x) (ofTerm y) := fun _ _ _ _ => rfl
  simp only [leftFirst, rightFirst, read, render_binaryOp, render_inBlocks, operand_inBlocks _ some,
    operand_inBlocks _ some', writes, writes', Scope.thread_thread, Scope.union_assoc,
    List.append_assoc, String.append_assoc]

theorem render_regrouped_arithmetic :
    let named := fun name => Construct.variable.term (.list []) [.atom name]
    let op := fun operator left right =>
      Construct.binaryOp.term (.list []) [.atom operator, left, right]
    let product := op "*" ((op "+" (named "A") (named "B")).inBlocks [.list []]) (named "C")
    let sum := op "+" (named "A") ((op "*" (named "B") (named "C")).inBlocks [.list []])
    Operator.isInfix "+" ∧ Operator.isInfix "*" ∧
      (ofTerm product).render {} .expression ∅ = (ofTerm sum).render {} .expression ∅ := by
  intro named op product sum
  have some : [Term.list []] ≠ [] := by decide
  exact ⟨by decide, by decide, render_regrouped {} .expression ∅ (by decide) (by decide) some some
    (.list []) (.list []) (.list []) (.list []) (named "A") (named "B") (named "C")⟩

/-- A product of a sum reads as a sum. -/
theorem text_render_product_of_sum :
    let named := fun name => Construct.variable.term (.list []) [.atom name]
    let op := fun operator left right =>
      Construct.binaryOp.term (.list []) [.atom operator, left, right]
    let product := op "*" ((op "+" (named "A") (named "B")).inBlocks [.list []]) (named "C")
    ((ofTerm product).render {} .expression ∅).text = "a + b * c" := by
  decide

/-- A match loses its grouping even without blocks around it. -/
theorem text_render_matching_operand (infixed : Operator.isInfix operator)
    (a a' b b' pattern value right : Term) (closed : (ofTerm value).isInfix = false)
    (constant : ∀ name, ¬ (ofTerm right).Mentions name) :
    let matchFirst := Construct.binaryOp.term a [.atom operator,
      Construct.matching.term b [pattern, value], right]
    let operatorFirst := Construct.matching.term a' [pattern,
      Construct.binaryOp.term b' [.atom operator, value, right]]
    ((ofTerm matchFirst).render layout position scope).text =
      ((ofTerm operatorFirst).render layout position scope).text := by
  intro matchFirst operatorFirst
  obtain ⟨sign, writes⟩ := writeBinary_of_isInfixed infixed
  have readFirst : ofTerm matchFirst =
    .binaryOp operator (.matching (ofTerm pattern) (ofTerm value)) (ofTerm right) := rfl
  have readSecond : ofTerm operatorFirst =
    .matching (ofTerm pattern) (.binaryOp operator (ofTerm value) (ofTerm right)) := rfl
  have matchClosed : (matching (ofTerm pattern) (ofTerm value)).isInfix = false := rfl
  -- The operand declares nothing, so the pattern sees the same in both programs.
  have unbound := fun scope => (render_of_closed layout constant position position scope scope).2
  rw [readFirst, readSecond, text_render_matching, render_binaryOp]
  simp only [writes, operand_of_closed closed, operand_of_closed matchClosed, text_render_matching,
    render_binaryOp, unbound, Scope.union_empty, String.append_assoc]
  rw [(render_of_closed layout constant position position _ _).1]

/-- What is called loses its grouping. -/
theorem render_callee (infixed : Operator.isInfix operator) (a a' b b' left callee : Term)
    (blocks arguments : List Term)
    (closed : (ofTerm callee).isInfix = false) (nameless : callee.name? = none)
    (notRemote : callee.construct? ≠ some .remote) :
    let callFirst := Construct.call.term a
      [(Construct.binaryOp.term b [.atom operator, left, callee]).inBlocks blocks, .list arguments]
    let callLast := Construct.binaryOp.term a' [.atom operator, left,
      Construct.call.term b' [callee, .list arguments]]
    (ofTerm callFirst).render layout position scope =
      (ofTerm callLast).render layout position scope := by
  intro callFirst callLast
  obtain ⟨sign, writes⟩ := writeBinary_of_isInfixed infixed
  let called := (Construct.binaryOp.term b [.atom operator, left, callee]).inBlocks blocks
  have calledNameless : called.name? = none := by
    simp only [called]
    cases blocks <;> rfl
  have calledNotRemote : called.construct? ≠ some .remote := by
    simp only [called]
    cases blocks <;> simp [Term.inBlocks, Construct.payload]
  have readFirst : ofTerm callFirst = .valueCall (ofTerm called) (arguments.map ofTerm) :=
    ofTerm_valueCall calledNameless calledNotRemote
  have readCalled : ofTerm (Construct.binaryOp.term b [.atom operator, left, callee]) =
    .binaryOp operator (ofTerm left) (ofTerm callee) := rfl
  have readLast : ofTerm callLast = .binaryOp operator (ofTerm left)
    (ofTerm (Construct.call.term b' [callee, .list arguments])) := rfl
  have callClosed : (valueCall (ofTerm callee) (arguments.map ofTerm)).isInfix = false := rfl
  rw [readFirst, readLast, ofTerm_valueCall nameless notRemote]
  simp only [render_valueCall, render_binaryOp, called, render_inBlocks, readCalled, writes,
    operand_of_closed closed, operand_of_closed callClosed, Scope.thread_thread,
    Scope.union_assoc, List.append_assoc, String.append_assoc]

/-- A block after a sign loses its grouping, unless its text starts with a sign. -/
theorem text_render_prefixed (infixed : Operator.isInfix operator) {sign : String}
    (prefixed : Operator.isPrefix sign) (a a' b b' left right : Term) {blocks : List Term}
    (some : blocks ≠ []) (notPrefixed : (ofTerm left).isPrefix = false)
    (unsigned : startsWithSign ((ofTerm left).operand
      ((ofTerm left).render layout position scope).text) = false) :
    let prefixFirst := Construct.unaryOp.term a [.atom sign,
      (Construct.binaryOp.term b [.atom operator, left, right]).inBlocks blocks]
    let infixFirst := Construct.binaryOp.term a' [.atom operator,
      Construct.unaryOp.term b' [.atom sign, left], right]
    ((ofTerm prefixFirst).render layout position scope).text =
      ((ofTerm infixFirst).render layout position scope).text := by
  intro prefixFirst infixFirst
  obtain ⟨infixSign, writes⟩ := writeBinary_of_isInfixed infixed
  obtain ⟨prefixSign, writes'⟩ := writeUnary_of_prefixed prefixed
  have readFirst : ofTerm prefixFirst = .unaryOp sign
    (ofTerm ((Construct.binaryOp.term b [.atom operator, left, right]).inBlocks blocks)) := rfl
  have readInner : ofTerm (Construct.binaryOp.term b [.atom operator, left, right]) =
    .binaryOp operator (ofTerm left) (ofTerm right) := rfl
  have readSecond : ofTerm infixFirst =
    .binaryOp operator (.unaryOp sign (ofTerm left)) (ofTerm right) := rfl
  have unaryClosed : (unaryOp sign (ofTerm left)).isInfix = false := rfl
  have sameDeclared : ((unaryOp sign (ofTerm left)).render layout position scope).declared =
    ((ofTerm left).render layout position scope).declared := rfl
  rw [readFirst, readSecond, text_render_unaryOp, render_inBlocks, readInner]
  simp only [render_binaryOp, writes, operand_of_closed unaryClosed, text_render_unaryOp, writes',
    sameDeclared, prefixOperand_of_unsigned notPrefixed unsigned, String.append_assoc]
  rw [prefixOperand_inBlocks _ some (startsWithSign_append unsigned _)]

end Expr

end Legible
