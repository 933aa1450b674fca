import Legible.Expr.Rendering
import Legible.Expr.Syntax

/-!
Rendering of expressions, patterns and clauses.

Siblings are rendered from left to right, each in the scope that those before it leave. What a
guard or a function value binds is bound nowhere else. An operand that is itself written with an
operator stands in parentheses.
-/

set_option autoImplicit false

namespace Legible

namespace Expr

def operand (e : Expr) (text : String) : String :=
  if e.isInfix then parenthesized text else text

def startsWithSign (text : String) : Bool :=
  match text.toList with
  | '-' :: _ | '+' :: _ => true
  | _ => false

theorem startsWithSign_iff (text : String) :
    startsWithSign text ↔ text.toList.head? = some '-' ∨ text.toList.head? = some '+' := by
  unfold startsWithSign
  split
  next minus => simp [minus]
  next plus => simp [plus]
  next noMinus noPlus => simp_all [List.head?_eq_some_iff]

def prefixOperand (e : Expr) (text : String) : String :=
  if e.isPrefix || startsWithSign text then parenthesized text else e.operand text

/-- Tests joined to an alternative; operators are in parentheses if there are several tests. -/
def alternative (tests : List Expr) (rendered : List Rendering) : Alternative where
  text := " and ".intercalate <| List.zipWith
    (fun test rendering =>
      if 1 < tests.length && test.isInfix then parenthesized rendering.text else rendering.text)
    tests rendered
  tests := tests.length
  warnings := rendered.flatMap Rendering.warnings

def closureText (layout : Layout) (arms : List String) : String :=
  match arms with
  | [arm] => if Text.spansLines arm then layout.arms "fn" [arm] else "fn " ++ arm ++ " end"
  | arms => layout.arms "fn" arms

def receiveAfterText (layout : Layout) (arms : List String) (timeout after : String) : String :=
  let received := if arms.isEmpty then "" else layout.indent ("\n".intercalate arms) ++ "\n"
  "receive do\n" ++ received ++ layout.arms "after" [layout.arm timeout after]

def blockText (layout : Layout) (length : Nat) (text : String) : String :=
  if length = 1 then text else "(\n" ++ layout.indent text ++ "\n)"

/-- The scope of the pattern before a match sign, after the value declared `declared`. Inside a
pattern both sides are patterns of the same scope. -/
def patternScope (position : Position) (scope declared : Scope) : Scope :=
  match position with
  | .pattern => scope.thread declared
  | .expression => (scope ∪ declared).withPinning true

mutual

def render (layout : Layout) : Expr → Position → Scope → Rendering
  | .placeholder what, _, _ => .plain what.text
  | .unsupported cause line, _, _ =>
    { text := Placeholder.code.text, declared := ∅, warnings := [⟨cause, line⟩] }
  | .variable name, _, scope => .ofVariable name scope
  | .atom name, _, _ => .plain (Spelling.ofAtom name)
  | .integer value, _, _ => .plain value.literal
  | .float value, _, _ => .plain value.literal
  | .bareNumber value, _, _ => .plain value.text
  | .char code, _, _ => .plain (Spelling.ofChar code.toInt)
  | .string text, _, _ => .plain (Spelling.ofText text)
  | .list elements, position, scope =>
    let inner := (renderAll layout elements position scope).join ", "
    { inner with text := "[" ++ inner.text ++ "]" }
  | .openList elements tail, position, scope =>
    let inner := (renderAll layout elements position scope).join ", "
    let last := tail.render layout position (scope.thread inner.declared)
    { text := "[" ++ inner.text ++ " | " ++ last.text ++ "]"
      declared := inner.declared ∪ last.declared
      warnings := inner.warnings ++ last.warnings }
  | .tuple elements, position, scope =>
    let inner := (renderAll layout elements position scope).join ", "
    { inner with text := "\x7b" ++ inner.text ++ "\x7d" }
  | .map entries, position, scope =>
    let inner := (renderEntries layout entries position scope).join ", "
    { inner with text := "%\x7b" ++ inner.text ++ "\x7d" }
  | .mapUpdate source entries, position, scope =>
    let first := source.render layout position scope
    let inner := (renderEntries layout entries position (scope.thread first.declared)).join ", "
    { text := "%\x7b" ++ first.text ++ " | " ++ inner.text ++ "\x7d"
      declared := first.declared ∪ inner.declared
      warnings := first.warnings ++ inner.warnings }
  | .matching pattern value, position, scope =>
    -- The value is evaluated first, so the pattern sees the names it binds.
    let right := value.render layout position scope
    let left := pattern.render layout .pattern (patternScope position scope right.declared)
    { text := left.text ++ " = " ++ right.text
      declared := right.declared ∪ left.declared
      warnings := right.warnings ++ left.warnings }
  | .binaryOp operator left right, position, scope =>
    let first := left.render layout position scope
    let second := right.render layout position (scope.thread first.declared)
    { text := Operator.writeBinary operator (left.operand first.text) (right.operand second.text)
      declared := first.declared ∪ second.declared
      warnings := first.warnings ++ second.warnings }
  | .unaryOp operator operand, position, scope =>
    let inner := operand.render layout position scope
    { inner with text := Operator.writeUnary operator (operand.prefixOperand inner.text) }
  | .localCall function arguments, position, scope =>
    let inner := (renderAll layout arguments position scope).join ", "
    { inner with text := Spelling.ofFunction function ++ parenthesized inner.text }
  | .remoteCall module function arguments, position, scope =>
    let inner := (renderAll layout arguments position scope).join ", "
    { inner with
      text := Spelling.ofAtom module ++ "." ++ Spelling.ofRemoteFunction function ++
        parenthesized inner.text }
  | .dynamicCall module function arguments, position, scope =>
    let first := module.render layout position scope
    let afterFirst := scope.thread first.declared
    let second := function.render layout position afterFirst
    let inner :=
      (renderAll layout arguments position (afterFirst.thread second.declared)).join ", "
    { text := "apply(" ++ first.text ++ ", " ++ second.text ++ ", [" ++ inner.text ++ "])"
      declared := first.declared ∪ second.declared ∪ inner.declared
      warnings := first.warnings ++ second.warnings ++ inner.warnings }
  | .valueCall function arguments, position, scope =>
    let first := function.render layout position scope
    let inner := (renderAll layout arguments position (scope.thread first.declared)).join ", "
    { text := first.text ++ "." ++ parenthesized inner.text
      declared := first.declared ∪ inner.declared
      warnings := first.warnings ++ inner.warnings }
  | .closure clauses, _, scope =>
    let arms := renderArms layout .closure clauses scope
    { text := closureText layout arms.texts, declared := ∅, warnings := arms.warnings }
  | .localCapture function arity, _, _ =>
    .plain ("&" ++ Spelling.ofFunction function ++ "/" ++ Decimal.ofInt arity.toInt)
  | .remoteCapture module function arity, _, _ =>
    .plain ("&" ++ Spelling.ofAtom module ++ "." ++ Spelling.ofRemoteFunction function ++ "/" ++
      Decimal.ofInt arity.toInt)
  | .dynamicCapture module function arity, position, scope =>
    -- No part sees what another one binds, and nothing of it is seen outside.
    let first := module.render layout position scope
    let second := function.render layout position scope
    let third := arity.render layout position scope
    { text := "Function.capture(" ++ first.text ++ ", " ++ second.text ++ ", " ++ third.text ++ ")"
      declared := ∅
      warnings := first.warnings ++ second.warnings ++ third.warnings }
  | .caseOf value clauses, position, scope =>
    let first := value.render layout position scope
    let arms := renderArms layout .branch clauses (scope.thread first.declared)
    { text := layout.arms ("case " ++ first.text ++ " do") arms.texts
      declared := first.declared ∪ arms.declared
      warnings := first.warnings ++ arms.warnings }
  | .ifOf clauses, position, scope =>
    let arms := renderConditions layout clauses position scope
    { text := layout.arms "cond do" arms.texts
      declared := arms.declared
      warnings := arms.warnings }
  | .receive clauses, _, scope =>
    let arms := renderArms layout .branch clauses scope
    { text := layout.arms "receive do" arms.texts
      declared := arms.declared
      warnings := arms.warnings }
  | .receiveAfter clauses timeout after, position, scope =>
    -- When the time is over no clause was taken, so none of their names is bound.
    let arms := renderArms layout .branch clauses scope
    let time := timeout.render layout position scope
    let body := (renderAll layout after position (scope.thread time.declared)).join "\n"
    { text := receiveAfterText layout arms.texts time.text body.text
      declared := arms.declared ∪ time.declared ∪ body.declared
      warnings := arms.warnings ++ time.warnings ++ body.warnings }
  | .block body, position, scope =>
    let inner := (renderAll layout body position scope).join "\n"
    { inner with text := blockText layout body.length inner.text }

/-- Siblings, each in the scope that the one before leaves. -/
def renderAll (layout : Layout) : List Expr → Position → Scope → Sequence
  | [], _, _ => .empty
  | e :: rest, position, scope =>
    let first := e.render layout position scope
    .cons first (renderAll layout rest position (scope.thread first.declared))

/-- The tests of a guard, none of which sees what another one binds. -/
def renderTests (layout : Layout) : List Expr → Position → Scope → List Rendering
  | [], _, _ => []
  | e :: rest, position, scope =>
    e.render layout position scope :: renderTests layout rest position scope

def renderGuards (layout : Layout) : List (List Expr) → Position → Scope → List Alternative
  | [], _, _ => []
  | tests :: rest, position, scope =>
    alternative tests (renderTests layout tests position scope) ::
      renderGuards layout rest position scope

def renderEntry (layout : Layout) : Entry → Position → Scope → Rendering
  | .pair key value, position, scope =>
    let first := key.render layout position scope
    let second := value.render layout position (scope.thread first.declared)
    { text := first.text ++ " => " ++ second.text
      declared := first.declared ∪ second.declared
      warnings := first.warnings ++ second.warnings }
  | .single element, position, scope => element.render layout position scope

def renderEntries (layout : Layout) : List Entry → Position → Scope → Sequence
  | [], _, _ => .empty
  | entry :: rest, position, scope =>
    let first := renderEntry layout entry position scope
    .cons first (renderEntries layout rest position (scope.thread first.declared))

def renderClause (layout : Layout) (kind : ClauseKind) : Clause → Scope → Option ClauseRendering
  | .clause patterns guards body, outer =>
    let head := (renderAll layout patterns .pattern (kind.patternScope outer)).join ", "
    let inner := kind.bodyScope outer head.declared
    let alternatives := renderGuards layout guards .expression inner
    let rest := (renderAll layout body .expression inner).join "\n"
    some
      { head := head.text
        guard := Alternative.guard alternatives
        body := rest.text
        declared := head.declared ∪ rest.declared
        warnings := head.warnings ++ Alternative.warningsOf alternatives ++ rest.warnings }
  | .malformed, _ => none

/-- Clauses as arms. Each sees the outer scope and nothing of the others. -/
def renderArms (layout : Layout) (kind : ClauseKind) : List Clause → Scope → Sequence
  | [], _ => .empty
  | clause :: rest, outer =>
    let first : Rendering :=
      match renderClause layout kind clause outer with
      | some parts =>
        { text := layout.arm parts.guardedHead parts.body
          declared := parts.declared
          warnings := parts.warnings }
      | none => .plain Placeholder.clauses.text
    .cons first (renderArms layout kind rest outer)

def renderCondition (layout : Layout) : Clause → Position → Scope → Rendering
  | .clause _ guards body, position, scope =>
    let alternatives := renderGuards layout guards position scope
    let rest := (renderAll layout body position scope).join "\n"
    { text := layout.arm (Alternative.condition alternatives) rest.text
      declared := rest.declared
      warnings := Alternative.warningsOf alternatives ++ rest.warnings }
  | .malformed, _, _ => .plain Placeholder.clauses.text

def renderConditions (layout : Layout) : List Clause → Position → Scope → Sequence
  | [], _, _ => .empty
  | clause :: rest, position, scope =>
    .cons (renderCondition layout clause position scope)
      (renderConditions layout rest position scope)

end

end Expr

end Legible
