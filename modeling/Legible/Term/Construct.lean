import Legible.Term.Basic

/-!
Constructs of abstract code: the tuples that stand for them, told apart by tag and arity, and the
names of their positions.

The first two positions of every construct are its tag and its annotation.
-/

set_option autoImplicit false

namespace Legible

inductive Construct where
  | variable
  | atom
  | integer
  | float
  | char
  | string
  | emptyList
  | cons
  | tuple
  | map
  | mapUpdate
  | mapFieldAssoc
  | mapFieldExact
  | matching
  | binaryOp
  | unaryOp
  | call
  | remote
  | funValue
  | caseOf
  | ifOf
  | receive
  | receiveAfter
  | block
  | clause
  | function
  | attribute
  | endOfFile
  | type
  | typeOfAnything
  | userType
  | remoteType
  | annotatedType
  deriving DecidableEq, Repr

namespace Construct

def tag : Construct → String
  | .variable => "var"
  | .atom => "atom"
  | .integer => "integer"
  | .float => "float"
  | .char => "char"
  | .string => "string"
  | .emptyList => "nil"
  | .cons => "cons"
  | .tuple => "tuple"
  | .map | .mapUpdate => "map"
  | .mapFieldAssoc => "map_field_assoc"
  | .mapFieldExact => "map_field_exact"
  | .matching => "match"
  | .binaryOp | .unaryOp => "op"
  | .call => "call"
  | .remote => "remote"
  | .funValue => "fun"
  | .caseOf => "case"
  | .ifOf => "if"
  | .receive | .receiveAfter => "receive"
  | .block => "block"
  | .clause => "clause"
  | .function => "function"
  | .attribute => "attribute"
  | .endOfFile => "eof"
  | .type | .typeOfAnything => "type"
  | .userType => "user_type"
  | .remoteType => "remote_type"
  | .annotatedType => "ann_type"

def payload : Construct → List String
  | .variable => ["name"]
  | .atom | .integer | .float | .char | .string => ["value"]
  | .emptyList | .endOfFile => []
  | .cons => ["head", "tail"]
  | .tuple => ["elements"]
  | .map => ["associations"]
  | .mapUpdate => ["map", "associations"]
  | .mapFieldAssoc | .mapFieldExact => ["key", "value"]
  | .matching => ["pattern", "expression"]
  | .binaryOp => ["operator", "left", "right"]
  | .unaryOp => ["operator", "operand"]
  | .call => ["function", "arguments"]
  | .remote => ["module", "function"]
  | .funValue => ["payload"]
  | .caseOf => ["expression", "clauses"]
  | .ifOf | .receive => ["clauses"]
  | .receiveAfter => ["clauses", "timeout", "after"]
  | .block => ["body"]
  | .clause => ["patterns", "guards", "body"]
  | .function => ["name", "arity", "clauses"]
  | .attribute => ["name", "value"]
  | .type => ["subtype", "arguments"]
  | .typeOfAnything => ["subtype"]
  | .userType => ["name", "arguments"]
  | .remoteType | .annotatedType => ["arguments"]

def fields (construct : Construct) : List String :=
  "tag" :: "anno" :: construct.payload

def arity (construct : Construct) : Nat :=
  construct.fields.length

def all : List Construct :=
  [.variable, .atom, .integer, .float, .char, .string, .emptyList, .cons, .tuple, .map, .mapUpdate,
    .mapFieldAssoc, .mapFieldExact, .matching, .binaryOp, .unaryOp, .call, .remote, .funValue,
    .caseOf, .ifOf, .receive, .receiveAfter, .block, .clause, .function, .attribute, .endOfFile,
    .type, .typeOfAnything, .userType, .remoteType, .annotatedType]

theorem mem_all (construct : Construct) : construct ∈ all := by
  cases construct <;> decide

def find? (tag : String) (arity : Nat) : Option Construct :=
  all.find? fun construct => construct.tag == tag && construct.arity == arity

/-- No two constructs share both tag and arity. -/
theorem eq_of_tag_arity {left right : Construct} (tags : left.tag = right.tag)
    (arities : left.arity = right.arity) : left = right := by
  revert tags arities
  cases left <;> cases right <;> decide

theorem find?_eq_some_iff {tag : String} {arity : Nat} {construct : Construct} :
    find? tag arity = some construct ↔ construct.tag = tag ∧ construct.arity = arity := by
  constructor
  · intro found
    simpa using List.find?_some found
  · rintro ⟨rfl, rfl⟩
    cases found : find? construct.tag construct.arity with
    | none =>
      have missing := List.find?_eq_none.1 found construct (mem_all construct)
      simp at missing
    | some other =>
      have same := List.find?_some found
      simp only [Bool.and_eq_true, beq_iff_eq] at same
      exact congrArg some (eq_of_tag_arity same.1 same.2)

def accepts (construct : Construct) (t : Term) : Bool :=
  t.tag? == some construct.tag && t.arity? == some construct.arity

def field? (construct : Construct) (t : Term) (name : String) : Option Term :=
  (construct.fields.idxOf? name).bind t.element?

end Construct

namespace Term

def construct? (t : Term) : Option Construct := do
  Construct.find? (← t.tag?) (← t.arity?)

theorem construct?_eq_some_iff {t : Term} {construct : Construct} :
    t.construct? = some construct ↔ construct.accepts t := by
  simp only [construct?, Option.bind_eq_bind, Option.bind_eq_some_iff,
    Construct.find?_eq_some_iff, Construct.accepts, Bool.and_eq_true, beq_iff_eq]
  constructor
  · rintro ⟨tag, hasTag, arity, hasArity, rfl, rfl⟩
    exact ⟨hasTag, hasArity⟩
  · rintro ⟨hasTag, hasArity⟩
    exact ⟨_, hasTag, _, hasArity, rfl, rfl⟩

def quotedAtom? (t : Term) : Option String :=
  if Construct.atom.accepts t then (t.element? 2).bind atom? else none

/-- Tag and arity of a tagged tuple, and otherwise the whole term. -/
def label (t : Term) : String :=
  match t.tag?, t.arity? with
  | some tag, some arity => tag ++ "/" ++ Decimal.ofInt arity
  | _, _ => t.text

end Term

end Legible
