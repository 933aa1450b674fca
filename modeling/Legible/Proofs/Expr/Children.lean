import Legible.Expr.Syntax

/-!
The expressions that stand directly in an expression, and the induction that they carry.
-/

set_option autoImplicit false

namespace Legible

def Entry.children : Entry → List Expr
  | .pair key value => [key, value]
  | .single element => [element]

def Clause.children : Clause → List Expr
  | .clause patterns guards body => patterns ++ guards.flatten ++ body
  | .malformed => []

namespace Expr

def children : Expr → List Expr
  | .list elements | .tuple elements | .localCall _ elements | .remoteCall _ _ elements
  | .block elements => elements
  | .openList elements tail => elements ++ [tail]
  | .map entries => entries.flatMap Entry.children
  | .mapUpdate source entries => source :: entries.flatMap Entry.children
  | .matching pattern value => [pattern, value]
  | .binaryOp _ left right => [left, right]
  | .unaryOp _ operand => [operand]
  | .dynamicCall module function arguments => module :: function :: arguments
  | .valueCall function arguments => function :: arguments
  | .closure clauses | .ifOf clauses | .receive clauses => clauses.flatMap Clause.children
  | .dynamicCapture module function arity => [module, function, arity]
  | .caseOf value clauses => value :: clauses.flatMap Clause.children
  | .receiveAfter clauses timeout after => clauses.flatMap Clause.children ++ timeout :: after
  | _ => []

private theorem sizeOf_lt_of_mem_entries {e : Expr} {entries : List Entry}
    (member : e ∈ entries.flatMap Entry.children) : sizeOf e < sizeOf entries := by
  obtain ⟨entry, inEntries, inEntry⟩ := List.mem_flatMap.1 member
  have outer := List.sizeOf_lt_of_mem inEntries
  cases entry with
  | pair key value =>
    simp only [Entry.pair.sizeOf_spec] at outer
    simp only [Entry.children, List.mem_cons, List.not_mem_nil, or_false] at inEntry
    rcases inEntry with rfl | rfl <;> omega
  | single element =>
    simp only [Entry.single.sizeOf_spec] at outer
    obtain rfl := List.mem_singleton.1 inEntry
    omega

private theorem sizeOf_lt_of_mem_clauses {e : Expr} {clauses : List Clause}
    (member : e ∈ clauses.flatMap Clause.children) : sizeOf e < sizeOf clauses := by
  obtain ⟨clause, inClauses, inClause⟩ := List.mem_flatMap.1 member
  have outer := List.sizeOf_lt_of_mem inClauses
  cases clause with
  | clause patterns guards body =>
    simp only [Clause.clause.sizeOf_spec] at outer
    simp only [Clause.children, List.mem_append, List.mem_flatten] at inClause
    rcases inClause with (inPatterns | ⟨tests, inGuards, inTests⟩) | inBody
    · have := List.sizeOf_lt_of_mem inPatterns
      omega
    · have := List.sizeOf_lt_of_mem inGuards
      have := List.sizeOf_lt_of_mem inTests
      omega
    · have := List.sizeOf_lt_of_mem inBody
      omega
  | malformed => cases inClause

theorem sizeOf_lt_of_mem_children {child e : Expr} (member : child ∈ e.children) :
    sizeOf child < sizeOf e := by
  cases e with
  | list elements | tuple elements | localCall _ elements | remoteCall _ _ elements
  | block elements =>
    have := List.sizeOf_lt_of_mem (show child ∈ elements from member)
    simp only [list.sizeOf_spec, tuple.sizeOf_spec, localCall.sizeOf_spec, remoteCall.sizeOf_spec,
      block.sizeOf_spec]
    omega
  | openList elements tail =>
    simp only [children, List.mem_append, List.mem_singleton] at member
    simp only [openList.sizeOf_spec]
    rcases member with inElements | rfl
    · have := List.sizeOf_lt_of_mem inElements
      omega
    · omega
  | map entries =>
    have := sizeOf_lt_of_mem_entries member
    simp only [map.sizeOf_spec]
    omega
  | mapUpdate source entries =>
    simp only [mapUpdate.sizeOf_spec]
    rcases List.mem_cons.1 member with rfl | inEntries
    · omega
    · have := sizeOf_lt_of_mem_entries inEntries
      omega
  | matching | binaryOp | unaryOp | dynamicCapture =>
    simp only [children, List.mem_cons, List.not_mem_nil, or_false] at member
    simp only [matching.sizeOf_spec, binaryOp.sizeOf_spec, unaryOp.sizeOf_spec,
      dynamicCapture.sizeOf_spec]
    rcases member with rfl | rfl | rfl <;> omega
  | dynamicCall module function arguments =>
    simp only [children, List.mem_cons] at member
    simp only [dynamicCall.sizeOf_spec]
    rcases member with rfl | rfl | inArguments
    · omega
    · omega
    · have := List.sizeOf_lt_of_mem inArguments
      omega
  | valueCall function arguments =>
    simp only [valueCall.sizeOf_spec]
    rcases List.mem_cons.1 member with rfl | inArguments
    · omega
    · have := List.sizeOf_lt_of_mem inArguments
      omega
  | closure clauses | ifOf clauses | receive clauses =>
    have := sizeOf_lt_of_mem_clauses member
    simp only [closure.sizeOf_spec, ifOf.sizeOf_spec, receive.sizeOf_spec]
    omega
  | caseOf value clauses =>
    simp only [caseOf.sizeOf_spec]
    rcases List.mem_cons.1 member with rfl | inClauses
    · omega
    · have := sizeOf_lt_of_mem_clauses inClauses
      omega
  | receiveAfter clauses timeout after =>
    simp only [children, List.mem_append, List.mem_cons] at member
    simp only [receiveAfter.sizeOf_spec]
    rcases member with inClauses | rfl | inAfter
    · have := sizeOf_lt_of_mem_clauses inClauses
      omega
    · omega
    · have := List.sizeOf_lt_of_mem inAfter
      omega
  | placeholder | unsupported | «variable» | atom | integer | float | bareNumber | char | string
  | localCapture | remoteCapture => cases member

/-- What holds of an expression as soon as it holds of its children, holds of every expression. -/
theorem children_induction {motive : Expr → Prop}
    (step : ∀ e, (∀ child ∈ e.children, motive child) → motive e) (e : Expr) : motive e := by
  apply step
  intro child member
  have smaller := sizeOf_lt_of_mem_children member
  exact children_induction step child
termination_by sizeOf e

/-- What holds of an expression and of every expression inside it. -/
inductive Every (P : Expr → Prop) : Expr → Prop
  | node {e : Expr} : P e → (∀ child ∈ e.children, child.Every P) → e.Every P

theorem Every.mono {P Q : Expr → Prop} (imp : ∀ e, P e → Q e) {e : Expr} (every : e.Every P) :
    e.Every Q := by
  induction every with
  | node holds _ ih => exact .node (imp _ holds) ih

theorem Every.child {P : Expr → Prop} {e : Expr} (every : e.Every P) :
    ∀ child ∈ e.children, child.Every P := by
  cases every with
  | node _ each => exact each

theorem Every.of_forall {P : Expr → Prop} (holds : ∀ e, P e) (e : Expr) : e.Every P := by
  induction e using children_induction with
  | _ e ih => exact .node (holds e) ih

end Expr

end Legible
