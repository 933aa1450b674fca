import Legible.Proofs.Expr.Sequence
import Legible.Proofs.Guard.Test
import Mathlib.Data.List.Forall2

/-!
Guards keep their logic.

The tests of an alternative are joined by `and`, and the alternatives by `or` in a condition and by
`when` after the head of a clause. Parentheses stand only where a reader needs them: around a test
with an operator between operands if it is not the only one, and in a condition around several
tests.
-/

set_option autoImplicit false

namespace Legible

namespace Expr

variable (layout : Layout)

theorem renderTests_eq_map (tests : List Expr) (position : Position) (scope : Scope) :
    renderTests layout tests position scope = tests.map (·.render layout position scope) := by
  induction tests with
  | nil => rfl
  | cons e rest ih => rw [renderTests, ih, List.map_cons]

theorem renderGuards_eq_map (guards : List (List Expr)) (position : Position) (scope : Scope) :
    renderGuards layout guards position scope =
      guards.map fun tests => alternative tests (tests.map (·.render layout position scope)) := by
  induction guards with
  | nil => rfl
  | cons tests rest ih => rw [renderGuards, ih, renderTests_eq_map, List.map_cons]

theorem text_alternative (tests : List Expr) (position : Position) (scope : Scope) :
    (alternative tests (tests.map (·.render layout position scope))).text =
      " and ".intercalate (tests.map fun e =>
        if 1 < tests.length then e.operand (e.render layout position scope).text
        else (e.render layout position scope).text) := by
  simp only [alternative, List.zipWith_map_right, List.zipWith_self, operand]
  congr 1
  refine List.map_congr_left fun e _ => ?_
  by_cases several : 1 < tests.length <;> simp [several]

end Expr

namespace Guard

theorem SpellsLevel.join {text text' sign separator : String} {row row' : Row}
    (first : SpellsLevel text row) (known : sign ∈ Operator.signs)
    (spaced : separator = " " ++ sign ++ " ") (second : SpellsLevel text' row') :
    SpellsLevel (text ++ separator ++ text') (row.append sign row') := by
  simpa [spaced, String.append_assoc] using first.append known second

theorem spells_all {text : String} {f : Formula} {texts : List String} {formulas : List Formula}
    (first : SpellsOperand text f) (later : List.Forall₂ SpellsOperand texts formulas) :
    SpellsLevel (" and ".intercalate (text :: texts))
      { first := f, later := formulas.map ("and", ·) } := by
  induction later generalizing text f with
  | nil => simpa using first.level
  | cons next _ ih =>
    have known : "and" ∈ Operator.signs := by decide
    rw [String.intercalate_cons_cons]
    exact first.level.join known rfl (ih next)

theorem spells_any {text : String} {f : Formula} {texts : List String} {formulas : List Formula}
    (first : SpellsFormula text f) (later : List.Forall₂ SpellsFormula texts formulas) :
    ∃ g, SpellsFormula (" or ".intercalate (text :: texts)) g ∧
      Formula.Alike g (.any (f :: formulas)) := by
  -- The later texts are read as one formula first, while `any` joins from the left: hence
  -- associativity.
  induction later generalizing text f with
  | nil => exact ⟨f, by simpa using first, .refl f⟩
  | @cons next h texts formulas spells _ ih =>
    obtain ⟨g, ⟨row, level, grouped⟩, alike⟩ := ih spells
    obtain ⟨row', level', grouped'⟩ := first
    obtain ⟨joined, groupedBoth, asPair⟩ := Row.group_or grouped' grouped
    refine ⟨joined, ⟨_, ?_, groupedBoth⟩, ?_⟩
    · have known : "or" ∈ Operator.signs := by decide
      rw [String.intercalate_cons_cons]
      exact level'.join known rfl level
    · have moved := Formula.join_infixed (.inr rfl) f h formulas
      exact (asPair.trans (.infixed "or" (.refl f) alike)).trans moved.symm

/-- Texts between which `when` stands read as what each of them says. -/
theorem readAlternatives_when {text : String} {f : Formula} {texts : List String}
    {formulas : List Formula} (first : SpellsFormula text f)
    (later : List.Forall₂ SpellsFormula texts formulas) :
    readAlternatives (" when ".intercalate (text :: texts)) = (f :: formulas).map some ∧
      '^' ∉ (" when ".intercalate (text :: texts)).toList := by
  induction later generalizing text f with
  | nil =>
    have alone := first.read?
    obtain ⟨row, level, -⟩ := first
    rw [String.intercalate_singleton]
    refine ⟨?_, level.unpinned⟩
    rw [readAlternatives, level.whole.splitWhen_eq, List.map_singleton]
    exact congrArg (fun read => [read]) alone
  | @cons next g texts formulas spells _ ih =>
    obtain ⟨rest, unpinned⟩ := ih spells
    have alone := first.read?
    obtain ⟨row, level, -⟩ := first
    rw [String.intercalate_cons_cons]
    generalize " when ".intercalate (next :: texts) = last at rest unpinned
    have written : (text ++ " when " ++ last).toList =
        text.toList ++ ' ' :: ("when".toList ++ ' ' :: last.toList) := by simp
    have between : tokens "when".toList = [.word "when"] := by decide
    constructor
    · rw [readAlternatives, written, tokens_spaced, between, List.singleton_append,
        level.whole.splitWhen_cons]
      exact congr (congrArg List.cons alone) rest
    · have := level.unpinned
      rw [written]
      grind

def guardTerm (guards : List (List Test)) : Term :=
  .list (guards.map fun tests => .list (tests.map Test.term))

def said (guards : List (List Test)) : List Formula :=
  guards.map fun tests => .all (tests.map Test.formula)

variable (layout : Layout) (position : Position) (scope : Scope)

def rendered (tests : List Test) : Alternative :=
  let read := tests.map fun test => Expr.ofTerm test.term
  Expr.alternative read (read.map (·.render layout position scope))

theorem renderGuards_eq (guards : List (List Test)) :
    Expr.renderGuards layout (Expr.guardsOfTerm (guardTerm guards)) position scope =
      guards.map (rendered layout position scope) := by
  rw [Expr.guardsOfTerm_eq_map, Expr.renderGuards_eq_map]
  simp [guardTerm, Term.members, Expr.testsOfTerm, rendered, Function.comp_def]

variable {scope}

private theorem forall₂_map {α : Type} {R : String → Formula → Prop} {text : α → String}
    {f : α → Formula} {members : List α} (each : ∀ member ∈ members, R (text member) (f member)) :
    List.Forall₂ R (members.map text) (members.map f) :=
  List.forall₂_map_left_iff.2 (List.forall₂_map_right_iff.2 (List.forall₂_same.2 each))

/-- An alternative reads as what all of its tests say. -/
theorem spells_rendered (free : scope.pinning = false) {tests : List Test} (some : tests ≠ []) :
    SpellsFormula (rendered layout position scope tests).text (.all (tests.map Test.formula)) := by
  rw [rendered, Expr.text_alternative, List.map_map]
  match tests, some with
  | [test], _ =>
    -- The only test stands bare, and need not read as an operand.
    have alone : SpellsFormula _ (.all [test.formula]) :=
      (test.spelled layout position free).formula
    simpa using alone
  | first :: next :: rest, _ =>
    have operand : ∀ test : Test, SpellsOperand
        ((Expr.ofTerm test.term).operand ((Expr.ofTerm test.term).render layout position scope).text)
        test.formula := fun test => (test.spelled layout position free).asOperand
    have several : 1 < ((first :: next :: rest).map fun test => Expr.ofTerm test.term).length := by
      simp
    have joined := spells_all (operand first)
      (forall₂_map fun (test : Test) (_ : test ∈ next :: rest) => operand test)
    simp only [several, if_true]
    exact ⟨_, joined, Row.group_all _ _⟩

/-- A condition reads as what any alternative says. -/
theorem spells_condition (free : scope.pinning = false) {guards : List (List Test)}
    (some : guards ≠ []) (each : ∀ tests ∈ guards, tests ≠ []) :
    ∃ f, SpellsFormula (Alternative.condition (guards.map (rendered layout position scope))) f ∧
      Formula.Alike f (.any (said guards)) := by
  match guards, some with
  | [tests], _ => exact ⟨_, spells_rendered layout position free (each tests (by simp)), .refl _⟩
  | first :: next :: rest, _ =>
    have spells : ∀ tests ∈ first :: next :: rest, SpellsFormula
        (if 1 < (rendered layout position scope tests).tests
          then parenthesized (rendered layout position scope tests).text
          else (rendered layout position scope tests).text)
        (.all (tests.map Test.formula)) := by
      intro tests member
      have alone := spells_rendered layout position free (each tests member)
      -- Between `or` any level may stand, so the parentheses are not needed to read the text back.
      split
      · exact alone.parenthesized.formula
      · exact alone
    have joined := spells_any (spells first (by simp))
      (forall₂_map fun tests member => spells tests (List.mem_cons_of_mem first member))
    simpa [Alternative.condition, said, Function.comp_def] using joined

/-- The text after the head of a clause reads as its alternatives. -/
theorem readAlternatives_guard (free : scope.pinning = false) {guards : List (List Test)}
    (some : guards ≠ []) (each : ∀ tests ∈ guards, tests ≠ []) :
    ∃ text, Alternative.guard (guards.map (rendered layout position scope)) = Option.some text ∧
      readAlternatives text = (said guards).map Option.some ∧ '^' ∉ text.toList := by
  match guards, some with
  | first :: rest, _ =>
    have spells : ∀ tests ∈ first :: rest,
        SpellsFormula (rendered layout position scope tests).text (.all (tests.map Test.formula)) :=
      fun tests member => spells_rendered layout position free (each tests member)
    have joined := readAlternatives_when (spells first (by simp))
      (forall₂_map fun tests member => spells tests (List.mem_cons_of_mem first member))
    refine ⟨_, rfl, ?_⟩
    simpa [said, Function.comp_def] using joined

end Guard

/-- The guard and the body of a clause pin nothing. -/
theorem ClauseKind.free_bodyScope (kind : ClauseKind) (outer : Scope) {head : Scope}
    (free : head.pinning = false) : (kind.bodyScope outer head).pinning = false := by
  cases kind with
  | function => exact free
  | closure | branch => rfl

open Guard in
/-- Guards keep their logic. A condition reads, by how tight operators bind, as what any alternative
says, up to associativity of `and` and of `or`; and a guard reads, between each `when` at its top
level, as what all tests of an alternative say. In a clause of any kind no variable of a guard is
pinned. -/
theorem guards_keep_logic {guards : List (List Test)} (some : guards ≠ [])
    (each : ∀ tests ∈ guards, tests ≠ []) (layout : Layout) (a patterns body : Term) :
    let clause := Expr.clauseOfTerm (Construct.clause.term a [patterns, guardTerm guards, body])
    (∀ (position : Position) (scope : Scope), scope.pinning = false →
      let alternatives :=
        Expr.renderGuards layout (Expr.guardsOfTerm (guardTerm guards)) position scope
      let condition := Alternative.condition alternatives
      (∃ rest, (Expr.renderCondition layout clause position scope).text =
        layout.arm condition rest) ∧
      (∃ f, read? condition = Option.some f ∧ Formula.Alike f (.any (said guards))) ∧
      ∃ text, Alternative.guard alternatives = Option.some text ∧
        readAlternatives text = (said guards).map Option.some) ∧
    ∀ (kind : ClauseKind) (outer : Scope), ∃ parts text,
      Expr.renderClause layout kind clause outer = Option.some parts ∧
        parts.guard = Option.some text ∧ '^' ∉ text.toList ∧
        readAlternatives text = (said guards).map Option.some := by
  intro clause
  constructor
  · intro position scope free alternatives condition
    have written : alternatives = guards.map (rendered layout position scope) :=
      renderGuards_eq layout position scope guards
    obtain ⟨f, spells, alike⟩ := spells_condition layout position free some each
    obtain ⟨text, guard, read, -⟩ := readAlternatives_guard layout position free some each
    rw [← written] at spells guard
    exact ⟨⟨_, rfl⟩, ⟨f, spells.read?, alike⟩, text, guard, read⟩
  · intro kind outer
    -- What a head declares has no flag, so the guard is free whatever the outer scope is.
    have head : (Expr.renderAll layout (Expr.listOfTerm patterns) .pattern
        (kind.patternScope outer)).declared.pinning = false := by
      rw [Expr.listOfTerm_eq_map]
      exact Expr.free_renderAll layout .pattern patterns.members _
    have free := kind.free_bodyScope outer head
    obtain ⟨text, guard, read, unpinned⟩ :=
      readAlternatives_guard layout .expression free some each
    rw [← renderGuards_eq] at guard
    exact ⟨_, text, rfl, guard, unpinned, read⟩

open Guard in
/-- Two alternatives, the second of which is a disjunction that needs no parentheses. -/
theorem guards_keep_logic_disjunction :
    let a := Term.list []
    let x := Test.variable a "X" rfl (by decide)
    let y := Test.variable a "Y" rfl (by decide)
    let guards := [[.binary a "==" rfl x (.integer a 1), .unary a "not" rfl y],
      [.binary a "orelse" rfl x y]]
    let alternatives := Expr.renderGuards {} (Expr.guardsOfTerm (guardTerm guards)) .expression ∅
    guards ≠ [] ∧ (∀ tests ∈ guards, tests ≠ []) ∧ (∅ : Scope).pinning = false ∧
      Alternative.condition alternatives = "((x == 1) and not y) or x or y" ∧
      ∃ f, read? (Alternative.condition alternatives) = some f ∧
        Formula.Alike f (.infixed "or"
          (.infixed "and" (.infixed "==" (.variable "X") (.integer 1))
            (.prefixed "not " (.variable "Y")))
          (.infixed "or" (.variable "X") (.variable "Y"))) := by
  intro a x y guards alternatives
  have nonempty : guards ≠ [] := List.cons_ne_nil _ _
  have each : ∀ tests ∈ guards, tests ≠ [] := by simp [guards]
  have free : (∅ : Scope).pinning = false := rfl
  have read := ((guards_keep_logic nonempty each {} a a a).1 .expression ∅ free).2.1
  exact ⟨nonempty, each, free, by decide +kernel, read⟩

end Legible
