import Legible.Proofs.Expr.Related

/-!
Two runs of the renderer over one expression.

What relates the words of an expression to themselves relates its whole renderings: the induction is
on the children of an expression, with one case for each construct.
-/

set_option autoImplicit false

namespace Legible

open List (Forall₂)
open Legible.Expr (separators)

variable {layout layout' : Layout} {texts : TextCongruence layout layout'} {views : ViewCongruence}

namespace Expr

variable (texts views)

/-- What an expression is written with apart from its children is related to itself, and so are
renderings of a variable. -/
structure SelfRelated (e : Expr) : Prop where
  words : ∀ word ∈ e.words, texts.Same word word
  complaints : views.SameWarnings e.complaints e.complaints
  named : ∀ name, e = .variable name → ∀ {scope scope' : Scope}, views.SameScope scope scope' →
    Related texts views (.ofVariable name scope) (.ofVariable name scope')

/-- An expression whose renderings are related whatever related things the runs see. -/
def Congruent (e : Expr) : Prop :=
  ∀ {position position' : Position} {scope scope' : Scope},
    views.SamePosition position position' → views.SameScope scope scope' →
    Related texts views (e.render layout position scope) (e.render layout' position' scope')

abbrev ClauseWords (clauses : List Clause) : Prop :=
  ∀ word ∈ clauses.flatMap Clause.words, texts.Same word word

variable {texts views}

theorem alternative_related (tests : List Expr) {rendered rendered' : List Rendering}
    (related : Forall₂ (Related texts views) rendered rendered') :
    RelatedAlternative texts views (alternative tests rendered) (alternative tests rendered') where
  text := by
    refine texts.intercalate " and " (by decide) ?_
    -- How many tests there are decides on parentheses and stays fixed in the induction.
    generalize tests.length = count
    induction related generalizing tests with
    | nil => simp
    | cons first _ ih =>
      cases tests with
      | nil => exact .nil
      | cons test rest =>
        refine .cons ?_ (ih rest)
        simp only
        split
        · exact texts.parenthesized first.text
        · exact first.text
  tests := rfl
  warnings := by
    simp only [alternative]
    induction related with
    | nil => exact views.none
    | cons first _ ih =>
      simp only [List.flatMap_cons]
      exact views.append first.warnings ih

section
variable {position position' : Position} {scope scope' : Scope}
  (positions : views.SamePosition position position') (scopes : views.SameScope scope scope')

include positions scopes

theorem renderAll_related {es : List Expr} (each : ∀ e ∈ es, e.Congruent texts views) :
    RelatedAll views texts.Same (renderAll layout es position scope)
      (renderAll layout' es position' scope') := by
  induction es generalizing scope scope' with
  | nil => exact .empty _
  | cons e rest ih =>
    have first := each e (List.mem_cons_self ..) positions scopes
    exact .cons first.text first.names first.warnings
      (ih (views.thread scopes first.names) fun e member => each e (List.mem_cons_of_mem _ member))

theorem joined_related (separator : String) (separates : separator ∈ separators) {es : List Expr}
    (each : ∀ e ∈ es, e.Congruent texts views) :
    Related texts views ((renderAll layout es position scope).join separator)
      ((renderAll layout' es position' scope').join separator) :=
  (renderAll_related positions scopes each).join separator separates

theorem renderEntry_related {entry : Entry}
    (each : ∀ e ∈ entry.children, e.Congruent texts views) :
    Related texts views (renderEntry layout entry position scope)
      (renderEntry layout' entry position' scope') := by
  cases entry with
  | pair key value =>
    have first := each key (by simp [Entry.children]) positions scopes
    have second := each value (by simp [Entry.children]) positions
      (views.thread scopes first.names)
    exact first.follow second (texts.around " => " (by decide) first.text second.text)
  | single element => exact each element (by simp [Entry.children]) positions scopes

theorem renderEntries_related {entries : List Entry}
    (each : ∀ e ∈ entries.flatMap Entry.children, e.Congruent texts views) :
    RelatedAll views texts.Same (renderEntries layout entries position scope)
      (renderEntries layout' entries position' scope') := by
  induction entries generalizing scope scope' with
  | nil => exact .empty _
  | cons entry rest ih =>
    simp only [List.flatMap_cons, List.mem_append] at each
    have first := renderEntry_related positions scopes fun e member => each e (.inl member)
    exact .cons first.text first.names first.warnings
      (ih (views.thread scopes first.names) fun e member => each e (.inr member))

theorem renderTests_related {tests : List Expr}
    (each : ∀ e ∈ tests, e.Congruent texts views) :
    Forall₂ (Related texts views) (renderTests layout tests position scope)
      (renderTests layout' tests position' scope') := by
  induction tests with
  | nil => exact .nil
  | cons test rest ih =>
    exact .cons (each test (List.mem_cons_self ..) positions scopes)
      (ih fun e member => each e (List.mem_cons_of_mem _ member))

theorem renderGuards_related {guards : List (List Expr)}
    (each : ∀ e ∈ guards.flatten, e.Congruent texts views) :
    Forall₂ (RelatedAlternative texts views) (renderGuards layout guards position scope)
      (renderGuards layout' guards position' scope') := by
  induction guards with
  | nil => exact .nil
  | cons tests rest ih =>
    simp only [List.flatten_cons, List.mem_append] at each
    have first := renderTests_related positions scopes fun e member => each e (.inl member)
    exact .cons (alternative_related tests first) (ih fun e member => each e (.inr member))

theorem renderConditions_related {clauses : List Clause} (words : ClauseWords texts clauses)
    (each : ∀ e ∈ clauses.flatMap Clause.children, e.Congruent texts views) :
    RelatedAll views texts.SameArm (renderConditions layout clauses position scope)
      (renderConditions layout' clauses position' scope') := by
  induction clauses with
  | nil => exact .empty _
  | cons clause rest ih =>
    simp only [ClauseWords, List.flatMap_cons, List.mem_append] at each words
    have later := ih (fun word member => words word (.inr member))
      fun e member => each e (.inr member)
    cases clause with
    | clause patterns guards body =>
      simp only [Clause.children, List.mem_append] at each
      have guards := renderGuards_related positions scopes
        fun e member => each e (.inl (.inl (.inr member)))
      have body := joined_related positions scopes "\n" (by decide)
        fun e member => each e (.inl (.inr member))
      exact .cons (texts.arm (RelatedAlternative.condition guards) body.text) body.names
        (views.append (RelatedAlternative.warningsOf guards) body.warnings) later
    | malformed =>
      have word := words Placeholder.clauses.text (.inl (List.mem_singleton_self _))
      exact .cons (texts.sameArm word) views.empty views.none later

end

section
variable {scope scope' : Scope} (scopes : views.SameScope scope scope')
include scopes

theorem patternScope_same (kind : ClauseKind) :
    views.SameScope (kind.patternScope scope) (kind.patternScope scope') := by
  cases kind with
  | function | closure => exact views.scope_of_names views.empty
  | branch => exact views.withPinning true scopes

theorem bodyScope_same (kind : ClauseKind) {head head' : Scope}
    (heads : views.SameNames head head') :
    views.SameScope (kind.bodyScope scope head) (kind.bodyScope scope' head') := by
  cases kind with
  | function => exact views.scope_of_names heads
  | closure | branch => exact views.join (views.withPinning false scopes) heads

theorem renderClause_related (kind : ClauseKind) {clause : Clause}
    (each : ∀ e ∈ clause.children, e.Congruent texts views) :
    Option.Rel (RelatedClause texts views) (renderClause layout kind clause scope)
      (renderClause layout' kind clause scope') := by
  cases clause with
  | clause patterns guards body =>
    simp only [Clause.children, List.mem_append] at each
    have heads := joined_related (views.position_refl .pattern) (patternScope_same scopes kind)
      ", " (by decide) fun e member => each e (.inl (.inl member))
    have inner := bodyScope_same scopes kind heads.names
    have guards := renderGuards_related (views.position_refl .expression) inner
      fun e member => each e (.inl (.inr member))
    have bodies := joined_related (views.position_refl .expression) inner
      "\n" (by decide) fun e member => each e (.inr member)
    have warnings := views.append (views.append heads.warnings
      (RelatedAlternative.warningsOf guards)) bodies.warnings
    exact .some ⟨heads.text, RelatedAlternative.guard guards, bodies.text,
      views.union heads.names bodies.names, warnings⟩
  | malformed => exact .none

theorem renderArms_related (kind : ClauseKind) {clauses : List Clause}
    (words : ClauseWords texts clauses)
    (each : ∀ e ∈ clauses.flatMap Clause.children, e.Congruent texts views) :
    RelatedAll views texts.SameArm (renderArms layout kind clauses scope)
      (renderArms layout' kind clauses scope') := by
  induction clauses with
  | nil => exact .empty _
  | cons clause rest ih =>
    simp only [ClauseWords, List.flatMap_cons, List.mem_append] at each words
    have first := renderClause_related scopes kind fun e member => each e (.inl member)
    have later := ih (fun word member => words word (.inr member))
      fun e member => each e (.inr member)
    simp only [renderArms]
    cases clause with
    | clause patterns guards body =>
      obtain ⟨parts⟩ := first
      have arms := texts.arm parts.guardedHead parts.body
      exact .cons arms parts.names parts.warnings later
    | malformed =>
      have word := words Placeholder.clauses.text (.inl (List.mem_singleton_self _))
      exact .cons (texts.sameArm word) views.empty views.none later

end

/-- Renderings are related if all that the expression is written with is related to itself. -/
theorem congruent (e : Expr) (every : e.Every (SelfRelated texts views)) :
    e.Congruent texts views := by
  -- Siblings see what earlier ones declare, so the views go along from one to the next.
  induction every with
  | @node e self _ each =>
    intro position position' scope scope' positions scopes
    obtain ⟨words, complaints, named⟩ := self
    cases e with
    | unsupported => exact ⟨words _ (List.mem_singleton_self _), views.empty, complaints⟩
    | placeholder | atom | integer | float | bareNumber | char | string
    | localCapture | remoteCapture => exact .plain (words _ (List.mem_singleton_self _))
    | «variable» name => exact named name rfl scopes
    | list elements =>
      have elements := joined_related positions scopes ", " (by decide) each
      exact elements.withText (texts.between "[" "]" (by decide) (by decide) elements.text)
    | tuple elements =>
      have elements := joined_related positions scopes ", " (by decide) each
      exact elements.withText (texts.between "\x7b" "\x7d" (by decide) (by decide) elements.text)
    | openList elements tail =>
      simp only [children, List.mem_append, List.mem_singleton] at each
      have elements := joined_related positions scopes ", " (by decide)
        fun e member => each e (.inl member)
      have last := each tail (.inr rfl) positions (views.thread scopes elements.names)
      have opened := texts.after "[" (by decide) elements.text
      exact elements.follow last
        (texts.before "]" (by decide) (texts.around " | " (by decide) opened last.text))
    | map entries =>
      have entries := (renderEntries_related positions scopes each).join
        ", " (by decide)
      exact entries.withText (texts.between "%\x7b" "\x7d" (by decide) (by decide) entries.text)
    | mapUpdate source entries =>
      simp only [children, List.mem_cons, forall_eq_or_imp] at each
      have sources := each.1 positions scopes
      have entries := (renderEntries_related positions (views.thread scopes sources.names)
        each.2).join ", " (by decide)
      have opened := texts.after "%\x7b" (by decide) sources.text
      exact sources.follow entries
        (texts.before "\x7d" (by decide) (texts.around " | " (by decide) opened entries.text))
    | matching pattern value =>
      have values := each value (by simp [children]) positions scopes
      have patterns := each pattern (by simp [children]) (views.position_refl .pattern)
        (views.patternScope positions scopes values.names)
      exact values.follow patterns (texts.around " = " (by decide) patterns.text values.text)
    | binaryOp operator left right =>
      have lefts := each left (by simp [children]) positions scopes
      have rights := each right (by simp [children]) positions (views.thread scopes lefts.names)
      exact lefts.follow rights (texts.writeBinary operator (words _ (List.mem_singleton_self _))
        (texts.operand left lefts.text) (texts.operand right rights.text))
    | unaryOp operator operand =>
      have operands := each operand (by simp [children]) positions scopes
      exact operands.withText (texts.writeUnary operator (words _ (List.mem_singleton_self _))
        (texts.prefixOperand operand operands.text))
    | localCall function arguments =>
      have arguments := joined_related positions scopes ", " (by decide) each
      exact arguments.withText
        (texts.applied_parenthesized (words _ (List.mem_singleton_self _)) arguments.text)
    | remoteCall module function arguments =>
      have arguments := joined_related positions scopes ", " (by decide) each
      exact arguments.withText
        (texts.applied_parenthesized (words _ (List.mem_singleton_self _)) arguments.text)
    | dynamicCall module function arguments =>
      simp only [children, List.mem_cons, forall_eq_or_imp] at each
      obtain ⟨modules, functions, rest⟩ := each
      have modules := modules positions scopes
      have afterFirst := views.thread scopes modules.names
      have functions := functions positions afterFirst
      have arguments := joined_related positions (views.thread afterFirst functions.names)
        ", " (by decide) rest
      have callee := modules.follow functions
        (texts.around ", " (by decide) (texts.after "apply(" (by decide) modules.text)
          functions.text)
      exact callee.follow arguments
        (texts.before "])" (by decide) (texts.around ", [" (by decide) callee.text arguments.text))
    | valueCall function arguments =>
      simp only [children, List.mem_cons, forall_eq_or_imp] at each
      have functions := each.1 positions scopes
      have arguments := joined_related positions (views.thread scopes functions.names)
        ", " (by decide) each.2
      exact functions.follow arguments
        (texts.around "." (by decide) functions.text (texts.parenthesized arguments.text))
    | closure clauses =>
      have arms := renderArms_related scopes .closure words each
      exact ⟨texts.closureText arms.texts, views.empty, arms.warnings⟩
    | dynamicCapture module function arity =>
      have modules := each module (by simp [children]) positions scopes
      have functions := each function (by simp [children]) positions scopes
      have arities := each arity (by simp [children]) positions scopes
      have names := texts.around ", " (by decide)
        (texts.after "Function.capture(" (by decide) modules.text) functions.text
      have whole := texts.before ")" (by decide) (texts.around ", " (by decide) names arities.text)
      exact ⟨whole, views.empty,
        views.append (views.append modules.warnings functions.warnings) arities.warnings⟩
    | caseOf value clauses =>
      simp only [children, List.mem_cons, forall_eq_or_imp] at each
      have values := each.1 positions scopes
      have arms := renderArms_related (views.thread scopes values.names) .branch words each.2
      have opening := texts.between "case " " do" (by decide) (by decide) values.text
      exact ⟨texts.arms opening arms.texts, views.union values.names arms.names,
        views.append values.warnings arms.warnings⟩
    | ifOf clauses =>
      have arms := renderConditions_related positions scopes words each
      have opening := texts.keyword "cond do" (by decide)
      exact ⟨texts.arms opening arms.texts, arms.names, arms.warnings⟩
    | receive clauses =>
      have arms := renderArms_related scopes .branch words each
      have opening := texts.keyword "receive do" (by decide)
      exact ⟨texts.arms opening arms.texts, arms.names, arms.warnings⟩
    | receiveAfter clauses timeout after =>
      simp only [children, List.mem_append, List.mem_cons] at each
      have arms := renderArms_related scopes .branch words fun e member => each e (.inl member)
      have time := each timeout (.inr (.inl rfl)) positions scopes
      have body := joined_related positions (views.thread scopes time.names)
        "\n" (by decide) fun e member => each e (.inr (.inr member))
      exact ⟨texts.receiveAfterText arms.texts time.text body.text,
        views.union (views.union arms.names time.names) body.names,
        views.append (views.append arms.warnings time.warnings) body.warnings⟩
    | block body =>
      have inner := joined_related positions scopes "\n" (by decide) each
      exact inner.withText (texts.blockText body.length inner.text)

end Expr

end Legible
