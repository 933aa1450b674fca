import Mathlib.Data.List.Forall2
import Legible.Expr.Render
import Legible.Proofs.Expr.Occurrence
import Legible.Proofs.Operator.Reader

/-!
Relations between two runs of the renderer.

A relation between texts is kept by every way of putting texts together, and one between what the
runs see, declare and warn of is kept on the way down into an expression and back up. Then the
parts of sequences, guards and clauses are related as soon as their own parts are. A property of one
run is such a relation too, between equal texts that have it.
-/

set_option autoImplicit false

namespace Legible

open List (Forall₂)

namespace Operator

def binaryWord (name : Option String) : String :=
  match name with
  | none => Placeholder.operator.text
  | some name =>
    match binary? name with
    | some (.infixed sign) => sign
    | some (.called function) => function
    | some (.prefixed _) | none => asFunction name

def unaryWord (name : Option String) : String :=
  match name with
  | none => Placeholder.operator.text
  | some name =>
    match unary? name with
    | some (.prefixed sign) => sign
    | some (.called function) => function
    | some (.infixed _) | none => asFunction name

end Operator

theorem warnings_ofVariable (name : String) (scope : Scope) :
    (Rendering.ofVariable name scope).warnings = [] := by
  unfold Rendering.ofVariable
  by_cases isWildcard : Spelling.ofVariable name = Spelling.wildcard
  · simp [isWildcard, Rendering.plain]
  · by_cases bound : Spelling.ofVariable name ∈ scope
    · simp [isWildcard, bound, Rendering.plain]
    · simp [isWildcard, bound]

def Clause.words : Clause → List String
  | .clause .. => []
  | .malformed => [Placeholder.clauses.text]

namespace Expr

/-- What an expression is written with apart from its children. -/
def words : Expr → List String
  | .placeholder what => [what.text]
  | .unsupported .. => [Placeholder.code.text]
  | .atom name => [Spelling.ofAtom name]
  | .integer value | .float value => [value.literal]
  | .bareNumber value => [value.text]
  | .char code => [Spelling.ofChar code.toInt]
  | .string text => [Spelling.ofText text]
  | .binaryOp operator _ _ => [Operator.binaryWord operator]
  | .unaryOp operator _ => [Operator.unaryWord operator]
  | .localCall function _ => [Spelling.ofFunction function]
  | .remoteCall module function _ =>
    [Spelling.ofAtom module ++ "." ++ Spelling.ofRemoteFunction function]
  | .localCapture function arity =>
    ["&" ++ Spelling.ofFunction function ++ "/" ++ Decimal.ofInt arity.toInt]
  | .remoteCapture module function arity =>
    ["&" ++ Spelling.ofAtom module ++ "." ++ Spelling.ofRemoteFunction function ++ "/" ++
      Decimal.ofInt arity.toInt]
  | .closure clauses | .caseOf _ clauses | .ifOf clauses | .receive clauses
  | .receiveAfter clauses _ _ => clauses.flatMap Clause.words
  | _ => []

def complaints : Expr → List Warning
  | .unsupported cause line => [⟨cause, line⟩]
  | _ => []

def separators : List String :=
  [", ", " | ", " = ", " => ", " and ", " or ", " when ", ", [", ".", "(", " ", "\n", "\n\n"]

def openings : List String :=
  ["[", "\x7b", "%\x7b", "(", "apply(", "Function.capture(", "case ", "-", "+", "not "]

def closings : List String :=
  ["]", "\x7d", ")", "])", " do"]

def keywords : List String :=
  ["", "true", "cond do", "receive do"]

theorem mem_openings_of_prefixed {name sign : String}
    (found : Operator.unary? name = some (.prefixed sign)) : sign ∈ openings := by
  rcases Operator.unary?_cases (Option.isSome_of_eq_some found) with
    ⟨sign, known, same⟩ | ⟨function, -, same⟩
  · have prefixes : ∀ sign ∈ ["-", "+", "not "], sign ∈ openings := by decide
    cases found.symm.trans same
    exact prefixes sign known
  · cases found.symm.trans same

end Expr

open Legible.Expr (separators openings closings keywords)

/-- A relation between texts of two layouts that is kept by whatever texts are put together with. -/
structure TextCongruence (layout layout' : Layout) where
  /-- Texts that stand for the same part in both runs. -/
  Same : String → String → Prop
  /-- The same for arms, whose lines are indented before something is put around them. -/
  SameArm : String → String → Prop
  keyword (text : String) : text ∈ keywords → Same text text
  around (separator : String) (_ : separator ∈ separators)
    {first first' second second' : String} : Same first first' → Same second second' →
    Same (first ++ separator ++ second) (first' ++ separator ++ second')
  after (opening : String) (_ : opening ∈ openings) {text text' : String} : Same text text' →
    Same (opening ++ text) (opening ++ text')
  before (closing : String) (_ : closing ∈ closings) {text text' : String} : Same text text' →
    Same (text ++ closing) (text' ++ closing)
  prefixOperand (e : Expr) {text text' : String} : Same text text' →
    Same (e.prefixOperand text) (e.prefixOperand text')
  blockText (length : Nat) {text text' : String} : Same text text' →
    Same (Expr.blockText layout length text) (Expr.blockText layout' length text')
  sameArm {text text' : String} : Same text text' → SameArm text text'
  arm {head head' body body' : String} : Same head head' → Same body body' →
    SameArm (layout.arm head body) (layout'.arm head' body')
  arms {opening opening' : String} {arms arms' : List String} : Same opening opening' →
    Forall₂ SameArm arms arms' → Same (layout.arms opening arms) (layout'.arms opening' arms')
  closureText {arms arms' : List String} : Forall₂ SameArm arms arms' →
    Same (Expr.closureText layout arms) (Expr.closureText layout' arms')
  receiveAfterText {arms arms' : List String} {timeout timeout' after after' : String} :
    Forall₂ SameArm arms arms' → Same timeout timeout' → Same after after' →
    Same (Expr.receiveAfterText layout arms timeout after)
      (Expr.receiveAfterText layout' arms' timeout' after')

/-- A relation between what two runs see that is kept on the way down into an expression, one
between what they declare and one between what they warn of. -/
structure ViewCongruence where
  SamePosition : Position → Position → Prop
  SameScope : Scope → Scope → Prop
  SameNames : Scope → Scope → Prop
  SameWarnings : List Warning → List Warning → Prop
  position_refl (position : Position) : SamePosition position position
  empty : SameNames ∅ ∅
  union {first first' second second' : Scope} : SameNames first first' →
    SameNames second second' → SameNames (first ∪ second) (first' ∪ second')
  none : SameWarnings [] []
  append {first first' second second' : List Warning} : SameWarnings first first' →
    SameWarnings second second' → SameWarnings (first ++ second) (first' ++ second')
  scope_of_names {declared declared' : Scope} : SameNames declared declared' →
    SameScope declared declared'
  thread {scope scope' declared declared' : Scope} : SameScope scope scope' →
    SameNames declared declared' → SameScope (scope.thread declared) (scope'.thread declared')
  join {scope scope' declared declared' : Scope} : SameScope scope scope' →
    SameNames declared declared' → SameScope (scope ∪ declared) (scope' ∪ declared')
  withPinning (pinning : Bool) {scope scope' : Scope} : SameScope scope scope' →
    SameScope (scope.withPinning pinning) (scope'.withPinning pinning)
  patternScope {position position' : Position} {scope scope' declared declared' : Scope} :
    SamePosition position position' → SameScope scope scope' → SameNames declared declared' →
    SameScope (Expr.patternScope position scope declared)
      (Expr.patternScope position' scope' declared')

namespace ViewCongruence

def any : ViewCongruence where
  SamePosition _ _ := True
  SameScope _ _ := True
  SameNames _ _ := True
  SameWarnings := Eq
  position_refl _ := trivial
  empty := trivial
  union _ _ := trivial
  none := rfl
  append first second := first ▸ second ▸ rfl
  scope_of_names _ := trivial
  thread _ _ := trivial
  join _ _ := trivial
  withPinning _ _ _ _ := trivial
  patternScope _ _ _ := trivial

def equal : ViewCongruence where
  SamePosition := Eq
  SameScope := Eq
  SameNames := Eq
  SameWarnings := Eq
  position_refl _ := rfl
  empty := rfl
  union first second := first ▸ second ▸ rfl
  none := rfl
  append first second := first ▸ second ▸ rfl
  scope_of_names names := names
  thread scopes names := scopes ▸ names ▸ rfl
  join scopes names := scopes ▸ names ▸ rfl
  withPinning _ _ _ scopes := scopes ▸ rfl
  patternScope positions scopes names := positions ▸ scopes ▸ names ▸ rfl

end ViewCongruence

def TextCongruence.equal (layout : Layout) : TextCongruence layout layout where
  Same := Eq
  SameArm := Eq
  keyword _ _ := rfl
  around _ _ _ _ _ _ first second := first ▸ second ▸ rfl
  after _ _ _ _ same := same ▸ rfl
  before _ _ _ _ same := same ▸ rfl
  prefixOperand _ _ _ same := same ▸ rfl
  blockText _ _ _ same := same ▸ rfl
  sameArm same := same
  arm head body := head ▸ body ▸ rfl
  arms opening arms := by
    rw [List.forall₂_eq_eq_eq] at arms
    rw [opening, arms]
  closureText arms := by
    rw [List.forall₂_eq_eq_eq] at arms
    rw [arms]
  receiveAfterText arms timeout after := by
    rw [List.forall₂_eq_eq_eq] at arms
    rw [arms, timeout, after]

variable {layout layout' : Layout} (texts : TextCongruence layout layout') (views : ViewCongruence)

namespace TextCongruence

theorem between (opening closing : String) (opens : opening ∈ openings)
    (closes : closing ∈ closings) {text text' : String} (same : texts.Same text text') :
    texts.Same (opening ++ text ++ closing) (opening ++ text' ++ closing) :=
  texts.before closing closes (texts.after opening opens same)

theorem parenthesized {text text' : String} (same : texts.Same text text') :
    texts.Same (parenthesized text) (Legible.parenthesized text') :=
  texts.between "(" ")" (by decide) (by decide) same

theorem applied {function function' text text' : String}
    (functions : texts.Same function function') (same : texts.Same text text') :
    texts.Same (function ++ "(" ++ text ++ ")") (function' ++ "(" ++ text' ++ ")") :=
  texts.before ")" (by decide) (texts.around "(" (by decide) functions same)

theorem applied_parenthesized {function function' text text' : String}
    (functions : texts.Same function function') (same : texts.Same text text') :
    texts.Same (function ++ Legible.parenthesized text)
      (function' ++ Legible.parenthesized text') := by
  simpa [Legible.parenthesized, String.append_assoc] using texts.applied functions same

theorem intercalate (separator : String) (separates : separator ∈ separators)
    {parts parts' : List String} (same : Forall₂ texts.Same parts parts') :
    texts.Same (separator.intercalate parts) (separator.intercalate parts') := by
  induction same with
  | nil => simpa using texts.keyword "" (by decide)
  | cons first rest ih =>
    cases rest with
    | nil => simpa using first
    | cons =>
      rw [String.intercalate_cons_cons, String.intercalate_cons_cons]
      exact texts.around separator separates first ih

theorem operand (e : Expr) {text text' : String} (same : texts.Same text text') :
    texts.Same (e.operand text) (e.operand text') := by
  unfold Expr.operand
  split
  · exact texts.parenthesized same
  · exact same

theorem writeBinary (operator : Option String) {left left' right right' : String}
    (word : texts.Same (Operator.binaryWord operator) (Operator.binaryWord operator))
    (lefts : texts.Same left left') (rights : texts.Same right right') :
    texts.Same (Operator.writeBinary operator left right)
      (Operator.writeBinary operator left' right') := by
  have infixed : ∀ {sign : String}, texts.Same sign sign →
      texts.Same (left ++ " " ++ sign ++ " " ++ right) (left' ++ " " ++ sign ++ " " ++ right') :=
    fun sign => texts.around " " (by decide) (texts.around " " (by decide) lefts sign) rights
  have called : ∀ {function : String}, texts.Same function function →
      texts.Same (function ++ "(" ++ left ++ ", " ++ right ++ ")")
        (function ++ "(" ++ left' ++ ", " ++ right' ++ ")") := fun function =>
    texts.before ")" (by decide)
      (texts.around ", " (by decide) (texts.around "(" (by decide) function lefts) rights)
  cases operator with
  | none => exact infixed word
  | some name =>
    simp only [Operator.writeBinary, Operator.applyBinary, Operator.binaryWord] at word ⊢
    split
    next found => exact infixed (by simpa [found] using word)
    next found => exact called (by simpa [found] using word)
    next found => exact called (by simpa [found] using word)
    next found => exact called (by simpa [found] using word)

theorem writeUnary (operator : Option String) {text text' : String}
    (word : texts.Same (Operator.unaryWord operator) (Operator.unaryWord operator))
    (same : texts.Same text text') :
    texts.Same (Operator.writeUnary operator text) (Operator.writeUnary operator text') := by
  -- A sign joins its operand directly, so it must be one of the openings.
  cases operator with
  | none => exact texts.around " " (by decide) word same
  | some name =>
    simp only [Operator.writeUnary, Operator.applyUnary, Operator.unaryWord] at word ⊢
    split
    next found => exact texts.after _ (Expr.mem_openings_of_prefixed found) same
    next found => exact texts.applied (by simpa [found] using word) same
    next found => exact texts.applied (by simpa [found] using word) same
    next found => exact texts.applied (by simpa [found] using word) same

end TextCongruence

structure Related (left right : Rendering) : Prop where
  text : texts.Same left.text right.text
  names : views.SameNames left.declared right.declared
  warnings : views.SameWarnings left.warnings right.warnings

structure RelatedAll (Same : String → String → Prop) (left right : Sequence) : Prop where
  texts : Forall₂ Same left.texts right.texts
  names : views.SameNames left.declared right.declared
  warnings : views.SameWarnings left.warnings right.warnings

structure RelatedAlternative (left right : Alternative) : Prop where
  text : texts.Same left.text right.text
  tests : left.tests = right.tests
  warnings : views.SameWarnings left.warnings right.warnings

structure RelatedClause (left right : ClauseRendering) : Prop where
  head : texts.Same left.head right.head
  guard : Option.Rel texts.Same left.guard right.guard
  body : texts.Same left.body right.body
  names : views.SameNames left.declared right.declared
  warnings : views.SameWarnings left.warnings right.warnings

variable {texts views}

theorem Related.plain {text : String} (word : texts.Same text text) :
    Related texts views (.plain text) (.plain text) :=
  ⟨word, views.empty, views.none⟩

theorem Related.withText {left right : Rendering} (related : Related texts views left right)
    {text text' : String} (same : texts.Same text text') :
    Related texts views { left with text } { right with text := text' } :=
  ⟨same, related.names, related.warnings⟩

theorem Related.follow {first first' second second' : Rendering}
    (before : Related texts views first first') (after : Related texts views second second')
    {text text' : String} (same : texts.Same text text') :
    Related texts views
      ⟨text, first.declared ∪ second.declared, first.warnings ++ second.warnings⟩
      ⟨text', first'.declared ∪ second'.declared, first'.warnings ++ second'.warnings⟩ :=
  ⟨same, views.union before.names after.names, views.append before.warnings after.warnings⟩

theorem RelatedAll.empty (Same : String → String → Prop) :
    RelatedAll views Same .empty .empty :=
  ⟨.nil, views.empty, views.none⟩

theorem RelatedAll.cons {Same : String → String → Prop} {first first' : Rendering}
    {rest rest' : Sequence} (text : Same first.text first'.text)
    (names : views.SameNames first.declared first'.declared)
    (warnings : views.SameWarnings first.warnings first'.warnings)
    (later : RelatedAll views Same rest rest') :
    RelatedAll views Same (.cons first rest) (.cons first' rest') :=
  ⟨.cons text later.texts, views.union names later.names, views.append warnings later.warnings⟩

theorem RelatedAll.join {left right : Sequence} (related : RelatedAll views texts.Same left right)
    (separator : String) (separates : separator ∈ separators) :
    Related texts views (left.join separator) (right.join separator) :=
  ⟨texts.intercalate separator separates related.texts, related.names, related.warnings⟩

section
variable {alternatives alternatives' : List Alternative}
  (related : Forall₂ (RelatedAlternative texts views) alternatives alternatives')
include related

theorem RelatedAlternative.condition :
    texts.Same (Alternative.condition alternatives) (Alternative.condition alternatives') := by
  have grouped : ∀ {left right : Alternative}, RelatedAlternative texts views left right →
      texts.Same (if 1 < left.tests then parenthesized left.text else left.text)
        (if 1 < right.tests then parenthesized right.text else right.text) := by
    intro left right both
    rw [both.tests]
    split
    · exact texts.parenthesized both.text
    · exact both.text
  have parts : Forall₂ texts.Same
      (alternatives.map fun a => if 1 < a.tests then parenthesized a.text else a.text)
      (alternatives'.map fun a => if 1 < a.tests then parenthesized a.text else a.text) :=
    List.forall₂_map_left_iff.2 (List.forall₂_map_right_iff.2 (related.imp fun _ _ => grouped))
  cases related with
  | nil => exact texts.keyword "true" (by decide)
  | cons first rest =>
    cases rest with
    | nil => exact first.text
    | cons => exact texts.intercalate " or " (by decide) parts

theorem RelatedAlternative.guard :
    Option.Rel texts.Same (Alternative.guard alternatives) (Alternative.guard alternatives') := by
  have parts : Forall₂ texts.Same (alternatives.map Alternative.text)
      (alternatives'.map Alternative.text) :=
    List.forall₂_map_left_iff.2 (List.forall₂_map_right_iff.2 (related.imp fun _ _ => (·.text)))
  cases related with
  | nil => exact .none
  | cons => exact .some (texts.intercalate " when " (by decide) parts)

theorem RelatedAlternative.warningsOf : views.SameWarnings (Alternative.warningsOf alternatives)
    (Alternative.warningsOf alternatives') := by
  induction related with
  | nil => exact views.none
  | cons first _ ih =>
    simp only [Alternative.warningsOf, List.flatMap_cons] at ih ⊢
    exact views.append first.warnings ih

end

theorem RelatedClause.guardedHead {left right : ClauseRendering}
    (related : RelatedClause texts views left right) :
    texts.Same left.guardedHead right.guardedHead := by
  have guards := related.guard
  unfold ClauseRendering.guardedHead
  generalize left.guard = guard, right.guard = guard' at guards ⊢
  cases guards with
  | none => exact related.head
  | some both => exact texts.around " when " (by decide) related.head both

end Legible
