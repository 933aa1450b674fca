import Legible.Proofs.Expr.Cons
import Legible.Proofs.Expr.Reads

/-!
Patterns, and where their variables are pinned.

The text of a pattern is said without any scope, by how its variables are written. Rendering yields
that text, with carets before exactly the names that were bound before the pattern: names that the
pattern itself binds further left make no difference.
-/

set_option autoImplicit false

namespace Legible

mutual

inductive Pattern where
  | variable (a : Term) (name : String)
  | atom (a : Term) (name : String)
  | integer (a : Term) (value : Number)
  | float (a : Term) (value : Number)
  | char (a : Term) (code : Int64)
  | string (a chars : Term) (text : String) (spells : chars.chars? = some text)
  | emptyList (a : Term)
  | cons (a : Term) (head tail : Pattern)
  | tuple (a : Term) (elements : List Pattern)
  | map (a : Term) (fields : List PatternField)
  | matching (a : Term) (left right : Pattern)
  | binaryOp (a operator : Term) (left right : Pattern)
  | unaryOp (a operator : Term) (operand : Pattern)

inductive PatternField where
  | assoc (a : Term) (key value : Pattern)
  | exact (a : Term) (key value : Pattern)

end

namespace Pattern

mutual

def term : Pattern → Term
  | .variable a name => Construct.variable.term a [.atom name]
  | .atom a name => Construct.atom.term a [.atom name]
  | .integer a value => Construct.integer.term a [.number value]
  | .float a value => Construct.float.term a [.number value]
  | .char a code => Construct.char.term a [.number (.integer code)]
  | .string a chars _ _ => Construct.string.term a [chars]
  | .emptyList a => Construct.emptyList.term a []
  | .cons a head tail => Construct.cons.term a [head.term, tail.term]
  | .tuple a elements => Construct.tuple.term a [.list (terms elements)]
  | .map a fields => Construct.map.term a [.list (fieldTerms fields)]
  | .matching a left right => Construct.matching.term a [left.term, right.term]
  | .binaryOp a operator left right =>
    Construct.binaryOp.term a [operator, left.term, right.term]
  | .unaryOp a operator operand => Construct.unaryOp.term a [operator, operand.term]

def terms : List Pattern → List Term
  | [] => []
  | p :: rest => p.term :: terms rest

def fieldTerms : List PatternField → List Term
  | [] => []
  | .assoc a key value :: rest =>
    Construct.mapFieldAssoc.term a [key.term, value.term] :: fieldTerms rest
  | .exact a key value :: rest =>
    Construct.mapFieldExact.term a [key.term, value.term] :: fieldTerms rest

end

def isInfix : Pattern → Bool
  | .binaryOp _ (.atom operator) _ _ => Operator.isInfix operator
  | _ => false

def isPrefix : Pattern → Bool
  | .unaryOp _ (.atom operator) _ => Operator.isPrefix operator
  | _ => false

def operand (p : Pattern) (text : String) : String :=
  if p.isInfix then parenthesized text else text

def prefixOperand (p : Pattern) (text : String) : String :=
  if p.isPrefix || Expr.startsWithSign text then parenthesized text else p.operand text

def lone (ends : Bool) (text : String) : String :=
  if ends then " | " ++ text else text

/-- The inside of a list: in brackets, or as what another list goes on with. -/
def listed (ends : Bool) (inner : String) : String :=
  if ends then inner else "[" ++ inner ++ "]"

mutual

/-- The text of a pattern whose variables are written by `write`. `ends` says that the pattern is
what a list ends in: then it is what stands there after the last element. -/
def text (write : String → String) (ends : Bool) : Pattern → String
  | .variable _ name => lone ends (write (Spelling.ofVariable name))
  | .atom _ name => lone ends (Spelling.ofAtom name)
  | .integer _ value => lone ends value.literal
  | .float _ value => lone ends value.literal
  | .char _ code => lone ends (Spelling.ofChar code.toInt)
  | .string _ _ text _ => lone ends (Spelling.ofText text)
  | .emptyList _ => listed ends ""
  | .cons _ head tail =>
    listed ends ((if ends then ", " else "") ++ head.text write false ++ tail.text write true)
  | .tuple _ elements => lone ends ("\x7b" ++ ", ".intercalate (texts write elements) ++ "\x7d")
  | .map _ fields => lone ends ("%\x7b" ++ ", ".intercalate (fieldTexts write fields) ++ "\x7d")
  | .matching _ left right => lone ends (left.text write false ++ " = " ++ right.text write false)
  | .binaryOp _ operator left right =>
    lone ends (Operator.writeBinary operator.atom? (left.operand (left.text write false))
      (right.operand (right.text write false)))
  | .unaryOp _ operator operand =>
    lone ends (Operator.writeUnary operator.atom?
      (operand.prefixOperand (operand.text write false)))

def texts (write : String → String) : List Pattern → List String
  | [] => []
  | p :: rest => p.text write false :: texts write rest

def fieldTexts (write : String → String) : List PatternField → List String
  | [] => []
  | .assoc _ key value :: rest | .exact _ key value :: rest =>
    (key.text write false ++ " => " ++ value.text write false) :: fieldTexts write rest

end

end Pattern

namespace Scope

def pinned (scope : Scope) (name : String) : String :=
  if name ≠ Spelling.wildcard ∧ name ∈ scope then "^" ++ name else name

def write (scope : Scope) (name : String) : String :=
  if scope.pinning then scope.pinned name else name

theorem write_thread (scope declared : Scope) : (scope.thread declared).write = scope.write := by
  cases pinning : scope.pinning with
  | true => rw [thread_of_pinning pinning]
  | false =>
    funext name
    simp [write, pinning]

theorem text_ofVariable (name : String) (scope : Scope) :
    (Rendering.ofVariable name scope).text = scope.write (Spelling.ofVariable name) := by
  rw [Rendering.text_ofVariable]
  cases pinning : scope.pinning <;> simp [write, pinned, pinning]

end Scope

open Legible.Expr (ofTerm ofTerms)

namespace Pattern

theorem ofTerm_string (a : Term) {chars : Term} {text : String}
    (spells : chars.chars? = some text) :
    ofTerm (string a chars text spells).term = .string text :=
  Expr.ofTerm_string spells

theorem isInfix_ofTerm (p : Pattern) : (ofTerm p.term).isInfix = p.isInfix := by
  cases p with
  | cons a head tail =>
    have read : ofTerm (cons a head tail).term = Expr.cons (ofTerm head.term) (ofTerm tail.term) :=
      rfl
    rw [read]
    cases ofTerm tail.term <;> rfl
  | string a chars text spells =>
    rw [ofTerm_string a spells]
    rfl
  | binaryOp a operator => cases operator <;> rfl
  | _ => rfl

theorem isPrefix_ofTerm (p : Pattern) : (ofTerm p.term).isPrefix = p.isPrefix := by
  cases p with
  | cons a head tail =>
    have read : ofTerm (cons a head tail).term = Expr.cons (ofTerm head.term) (ofTerm tail.term) :=
      rfl
    rw [read]
    cases ofTerm tail.term <;> rfl
  | string a chars text spells =>
    rw [ofTerm_string a spells]
    rfl
  | unaryOp a operator => cases operator <;> rfl
  | _ => rfl

theorem operand_ofTerm (p : Pattern) (text : String) :
    (ofTerm p.term).operand text = p.operand text := by
  rw [Expr.operand, operand, isInfix_ofTerm]

theorem prefixOperand_ofTerm (p : Pattern) (text : String) :
    (ofTerm p.term).prefixOperand text = p.prefixOperand text := by
  rw [Expr.prefixOperand, prefixOperand, isPrefix_ofTerm, operand_ofTerm]

variable (layout : Layout)

/-- Rendering a pattern yields its text, alone and as what a list ends in. -/
def Written (p : Pattern) : Prop :=
  ∀ scope : Scope,
    ((ofTerm p.term).render layout .pattern scope).text = p.text scope.write false ∧
      (ofTerm p.term).tailText layout .pattern scope = p.text scope.write true

theorem fieldWritten {key value : Pattern} (keys : key.Written layout)
    (values : value.Written layout) (scope : Scope) :
    (Expr.renderEntry layout (.pair (ofTerm key.term) (ofTerm value.term)) .pattern scope).text =
      key.text scope.write false ++ " => " ++ value.text scope.write false := by
  have first := (keys scope).1
  have second := (values
    (scope.thread ((ofTerm key.term).render layout .pattern scope).declared)).1
  rw [Scope.write_thread] at second
  rw [← first, ← second]
  rfl

mutual

theorem written : (p : Pattern) → p.Written layout
  | .variable a name => by
    intro scope
    have alone : ((ofTerm (term (.variable a name))).render layout .pattern scope).text =
      scope.write (Spelling.ofVariable name) := Scope.text_ofVariable name scope
    exact ⟨alone, congrArg (" | " ++ ·) alone⟩
  | .atom .. | .integer .. | .float .. | .char .. => fun _ => ⟨rfl, rfl⟩
  | .string a chars text spells => by
    intro scope
    rw [ofTerm_string]
    exact ⟨rfl, rfl⟩
  | .emptyList a => fun _ => ⟨rfl, rfl⟩
  | .cons a head tail => by
    intro scope
    have read : ofTerm (cons a head tail).term = Expr.cons (ofTerm head.term) (ofTerm tail.term) :=
      rfl
    -- What the head declares changes the scope of the tail, but not how its variables are written.
    have first := (written head scope).1
    have later := (written tail
      (scope.thread ((ofTerm head.term).render layout .pattern scope).declared)).2
    rw [Scope.write_thread] at later
    rw [read, Expr.render_cons, Expr.tailText_cons, text, text]
    simp only [first, later]
    constructor
    · simp [listed, String.append_assoc]
    · simp [listed, String.append_assoc]
  | .tuple a elements => by
    intro scope
    have inner := congrArg (", ".intercalate ·) (allWritten elements scope)
    have alone : ((ofTerm (tuple a elements).term).render layout .pattern scope).text =
        "\x7b" ++ ", ".intercalate (texts scope.write elements) ++ "\x7d" :=
      congrArg ("\x7b" ++ · ++ "\x7d") inner
    exact ⟨alone, congrArg (" | " ++ ·) alone⟩
  | .map a fields => by
    intro scope
    have inner := congrArg (", ".intercalate ·) (fieldsWritten fields scope)
    have alone : ((ofTerm (map a fields).term).render layout .pattern scope).text =
        "%\x7b" ++ ", ".intercalate (fieldTexts scope.write fields) ++ "\x7d" :=
      congrArg ("%\x7b" ++ · ++ "\x7d") inner
    exact ⟨alone, congrArg (" | " ++ ·) alone⟩
  | .matching a left right => by
    intro scope
    -- Inside a pattern, both sides of a match see the same pins.
    have value := (written right scope).1
    have pattern := (written left
      (scope.thread ((ofTerm right.term).render layout .pattern scope).declared)).1
    rw [Scope.write_thread] at pattern
    have alone : ((ofTerm (matching a left right).term).render layout .pattern scope).text =
        left.text scope.write false ++ " = " ++ right.text scope.write false := by
      rw [← value, ← pattern]
      rfl
    exact ⟨alone, congrArg (" | " ++ ·) alone⟩
  | .binaryOp a operator left right => by
    intro scope
    have first := (written left scope).1
    have second := (written right
      (scope.thread ((ofTerm left.term).render layout .pattern scope).declared)).1
    rw [Scope.write_thread] at second
    have alone : ((ofTerm (binaryOp a operator left right).term).render layout .pattern scope).text =
        Operator.writeBinary operator.atom? (left.operand (left.text scope.write false))
          (right.operand (right.text scope.write false)) := by
      rw [← first, ← second, ← operand_ofTerm, ← operand_ofTerm]
      rfl
    exact ⟨alone, congrArg (" | " ++ ·) alone⟩
  | .unaryOp a operator operand => by
    intro scope
    have inner := (written operand scope).1
    have alone : ((ofTerm (unaryOp a operator operand).term).render layout .pattern scope).text =
        Operator.writeUnary operator.atom?
          (operand.prefixOperand (operand.text scope.write false)) := by
      rw [← inner, ← prefixOperand_ofTerm]
      rfl
    exact ⟨alone, congrArg (" | " ++ ·) alone⟩

theorem allWritten : (ps : List Pattern) → ∀ scope : Scope,
    (Expr.renderAll layout (ofTerms (terms ps)) .pattern scope).texts = texts scope.write ps
  | [], _ => rfl
  | p :: rest, scope => by
    have first := (written p scope).1
    have later := allWritten rest
      (scope.thread ((ofTerm p.term).render layout .pattern scope).declared)
    rw [Scope.write_thread] at later
    rw [terms, ofTerms, Expr.renderAll, texts, ← first, ← later]
    rfl

theorem fieldsWritten : (fields : List PatternField) → ∀ scope : Scope,
    (Expr.renderEntries layout (Expr.entriesOfTerms (fieldTerms fields)) .pattern scope).texts =
      fieldTexts scope.write fields
  | [], _ => rfl
  | .assoc a key value :: rest, scope => by
    have first := fieldWritten layout (written key) (written value) scope
    have later := fieldsWritten rest
      (scope.thread (Expr.renderEntry layout (.pair (ofTerm key.term) (ofTerm value.term)) .pattern
        scope).declared)
    rw [Scope.write_thread] at later
    exact congr (congrArg List.cons first) later
  | .exact a key value :: rest, scope => by
    have first := fieldWritten layout (written key) (written value) scope
    have later := fieldsWritten rest
      (scope.thread (Expr.renderEntry layout (.pair (ofTerm key.term) (ofTerm value.term)) .pattern
        scope).declared)
    rw [Scope.write_thread] at later
    exact congr (congrArg List.cons first) later

end

end Pattern

/-- How the head of a clause writes its variables: a branch pins what is bound outside, and all
other heads bind anew. -/
def ClauseKind.write (kind : ClauseKind) (outer : Scope) : String → String :=
  match kind with
  | .function | .closure => id
  | .branch => outer.pinned

theorem ClauseKind.write_patternScope (kind : ClauseKind) (outer : Scope) :
    (kind.patternScope outer).write = kind.write outer := by
  cases kind <;> rfl

/-- Pins are exactly the names that were bound before the pattern: in a pattern on its own, in the
head of a clause and on the left of a match, which also sees what the right side declared. -/
theorem text_render_pattern (layout : Layout) :
    (∀ (p : Pattern) (scope : Scope),
      ((ofTerm p.term).render layout .pattern (scope.withPinning true)).text =
          p.text scope.pinned false ∧
        ((ofTerm p.term).render layout .pattern (scope.withPinning false)).text =
          p.text id false) ∧
    (∀ (kind : ClauseKind) (a guards body : Term) (ps : List Pattern) (outer : Scope),
      let clause := Construct.clause.term a [.list (Pattern.terms ps), guards, body]
      ∃ parts, Expr.renderClause layout kind (Expr.clauseOfTerm clause) outer = some parts ∧
        parts.head = ", ".intercalate (Pattern.texts (kind.write outer) ps)) ∧
    (∀ (a value : Term) (p : Pattern) (scope : Scope),
      let right := (ofTerm value).render layout .expression scope
      let matching := Construct.matching.term a [p.term, value]
      ((ofTerm matching).render layout .expression scope).text =
        p.text (scope ∪ right.declared).pinned false ++ " = " ++ right.text) := by
  refine ⟨fun p scope => ?_, fun kind a guards body ps outer => ?_, fun a value p scope => ?_⟩
  · have written := Pattern.written layout p
    exact ⟨(written (scope.withPinning true)).1, (written (scope.withPinning false)).1⟩
  · refine ⟨_, rfl, ?_⟩
    have head := Pattern.allWritten layout ps (kind.patternScope outer)
    rw [ClauseKind.write_patternScope] at head
    exact congrArg (", ".intercalate ·) head
  · have left := (Pattern.written layout p ((scope ∪
      ((ofTerm value).render layout .expression scope).declared).withPinning true)).1
    exact congrArg (· ++ " = " ++ ((ofTerm value).render layout .expression scope).text) left

end Legible
