import Legible.Expr.Render
import Legible.Proofs.Decimal.Starts
import Legible.Proofs.Expr.Reads
import Legible.Proofs.Operator.Reader

/-!
Variables beside literals: what is written for the one and for the other.

A variable is the only one that starts with a small letter or a low line, but for three atoms and
for placeholders. So a variable is mistaken for nothing else, except where its name is one of those
words, or a reserved word, with a capital letter.
-/

set_option autoImplicit false

namespace Legible

namespace Spelling

theorem startsVariable_of_mem_reserved {word : String} (member : word ∈ reserved) :
    startsVariable word := by
  have all : reserved.all startsVariable = true := by decide
  exact List.all_eq_true.1 all word member

theorem startsVariable_of_isBareAtom {word : String} (bare : isBareAtom word) :
    startsVariable word := by
  simp only [isBareAtom, Bool.or_eq_true, decide_eq_true_eq] at bare
  rcases bare with (rfl | rfl) | rfl <;> decide

theorem startsVariable_placeholder (what : Placeholder) : startsVariable what.text := by
  cases what <;> decide

theorem ofVariable_mem_reserved_iff {name : String} (spelled : isVariable name) :
    ofVariable name ∈ reserved ↔ name ∈ reserved.map variableOf := by
  rw [List.mem_map]
  constructor
  · exact fun member => ⟨_, member, variableOf_ofVariable spelled⟩
  · rintro ⟨word, member, rfl⟩
    rwa [ofVariable_variableOf (startsVariable_of_mem_reserved member)]

example : reserved.map variableOf = ["True", "False", "Nil", "When", "And", "Or", "Not", "In", "Fn",
    "Do", "End", "Catch", "Rescue", "After", "Else"] := by
  decide

theorem startsVariable_cons {text : String} {c : Char} {rest : List Char}
    (written : text.toList = c :: rest) : startsVariable text = opensVariable c := by
  rw [startsVariable, written]
  rfl

theorem startsVariable_append {opening : String} {c : Char} {rest : List Char}
    (written : opening.toList = c :: rest) (text : String) :
    startsVariable (opening ++ text) = opensVariable c := by
  rw [startsVariable, String.toList_append, written]
  rfl

theorem not_startsVariable_of_startsNumber {text : String}
    (starts : Decimal.StartsNumber text.toList) : startsVariable text = false := by
  obtain ⟨c, head, number⟩ := starts
  obtain ⟨rest, written⟩ := List.head?_eq_some_iff.1 head
  rw [startsVariable_cons written]
  rcases number with rfl | digit
  · decide
  · refine Bool.eq_false_iff.2 fun opens => ?_
    rw [not_isDigit_of_opensVariable opens] at digit
    cases digit

/-- An alias starts with a capital letter, and any other atom with a colon. -/
theorem not_startsVariable_ofAtom {name : String} (notBare : ¬ isBareAtom name) :
    startsVariable (ofAtom name) = false := by
  rw [ofAtom, if_neg notBare]
  split
  next found isAliased =>
    obtain ⟨-, valid⟩ := alias?_eq_some_iff.1 isAliased
    cases written : found.toList with
    | nil => simp [written, isAlias, aliasFrom] at valid
    | cons c rest =>
      rw [written, isAlias, aliasFrom, if_pos rfl, Bool.and_eq_true] at valid
      rw [startsVariable_cons written, not_opensVariable_of_isUpper valid.1]
  next => exact startsVariable_append (c := ':') rfl _

theorem not_startsVariable_ofInt (z : Int) : startsVariable (Decimal.ofInt z) = false :=
  not_startsVariable_of_startsNumber (Decimal.startsNumber_ofInt z)

theorem not_startsVariable_ofChar (code : Int) : startsVariable (ofChar code) = false := by
  unfold ofChar
  split
  case h_5 =>
    split
    · exact not_startsVariable_ofInt code
    · exact startsVariable_cons String.toList_ofList
  case h_6 => exact not_startsVariable_ofInt code
  all_goals rfl

theorem not_startsVariable_ofText (text : String) : startsVariable (ofText text) = false :=
  startsVariable_append (c := '~') rfl _

end Spelling

namespace Term

/-- Literals of atoms, integers, characters and strings, with any payload. Numbers are those that
literals are decoded to. -/
inductive Literal : Term → Prop
  | atom {a name : Term} : Literal (Construct.atom.term a [name])
  | integer {a value : Term} : (∀ n, value = .number n → n.IsDecoded) →
      Literal (Construct.integer.term a [value])
  | char {a code : Term} : Literal (Construct.char.term a [code])
  | string {a text : Term} : Literal (Construct.string.term a [text])

/-- What is written for a literal: one of three bare words for an atom, a placeholder if the payload
has the wrong kind, and a text that does not start as a variable does. -/
theorem Literal.text_cases {t : Term} (literal : t.Literal) (layout : Layout) (position : Position)
    (scope : Scope) :
    let text := ((Expr.ofTerm t).render layout position scope).text
    (∃ a word, t = Construct.atom.term a [.atom word] ∧ Spelling.isBareAtom word ∧ text = word) ∨
      (∃ what, t.Malformed what ∧ text = what.text) ∨ Spelling.startsVariable text = false := by
  cases literal with
  | @atom a name =>
    cases name with
    | atom word =>
      by_cases bare : Spelling.isBareAtom word
      · exact .inl ⟨a, word, rfl, bare, if_pos bare⟩
      · exact .inr (.inr (Spelling.not_startsVariable_ofAtom bare))
    | tuple | list | number | string => exact .inr (.inl ⟨_, .atom rfl, rfl⟩)
  | @integer a value decoded =>
    cases value with
    | number n =>
      have starts := (decoded n rfl).startsNumber_literal
      exact .inr (.inr (Spelling.not_startsVariable_of_startsNumber starts))
    | tuple | list | atom | string => exact .inr (.inl ⟨_, .integer rfl, rfl⟩)
  | @char a code =>
    cases code with
    | number n =>
      cases n with
      | integer value => exact .inr (.inr (Spelling.not_startsVariable_ofChar value.toInt))
      | float | beyond => exact .inr (.inl ⟨_, .char rfl, rfl⟩)
    | tuple | list | atom | string => exact .inr (.inl ⟨_, .char rfl, rfl⟩)
  | @string a value =>
    cases spells : value.chars? with
    | some text =>
      rw [Expr.ofTerm_string spells]
      exact .inr (.inr (Spelling.not_startsVariable_ofText text))
    | none =>
      have malformed : Malformed (Construct.string.term a [value]) .string := .string spells
      exact .inr (.inl ⟨_, malformed, by rw [Expr.ofTerm_malformed malformed]; rfl⟩)

end Term

namespace Expr

theorem ofVariable_eq_literal_iff {v : String} (isVariable : Spelling.isVariable v) {t : Term}
    (literal : t.Literal) (layout : Layout) (position : Position) (scope : Scope) :
    Spelling.ofVariable v = ((ofTerm t).render layout position scope).text ↔
      (∃ a word, t = Construct.atom.term a [.atom word] ∧ Spelling.isBareAtom word ∧
        v = Spelling.variableOf word) ∨
      ∃ what, t.Malformed what ∧ v = Spelling.variableOf what.text := by
  rw [Spelling.ofVariable_eq_text_iff isVariable]
  constructor
  · rintro ⟨starts, rfl⟩
    rcases literal.text_cases layout position scope with
      ⟨a, word, shape, bare, text⟩ | ⟨what, malformed, text⟩ | apart
    · exact .inl ⟨a, word, shape, bare, congrArg _ text⟩
    · exact .inr ⟨what, malformed, congrArg _ text⟩
    · rw [apart] at starts
      cases starts
  · rintro (⟨a, word, rfl, bare, rfl⟩ | ⟨what, malformed, rfl⟩)
    · have text : ((ofTerm (Construct.atom.term a [.atom word])).render layout position scope).text =
        word := if_pos bare
      rw [text]
      exact ⟨Spelling.startsVariable_of_isBareAtom bare, rfl⟩
    · rw [ofTerm_malformed malformed]
      exact ⟨Spelling.startsVariable_placeholder what, rfl⟩

/-- Two variables are never written alike. A variable is written as a reserved word only if it is
that word with a capital letter. It is written as a literal is only if the literal is an atom
without a colon, or malformed, and the variable is what stands there with a capital letter. -/
theorem text_render_variable_apart {v w : String} (isVariable : Spelling.isVariable v)
    (isVariable' : Spelling.isVariable w) {t : Term} (literal : t.Literal) (a b : Term)
    (layout : Layout) (position : Position) {scope : Scope} (free : scope.pinning = false) :
    let written := fun t => ((ofTerm t).render layout position scope).text
    let first := written (Construct.variable.term a [.atom v])
    (first = written (Construct.variable.term b [.atom w]) ↔ v = w) ∧
      (first ∈ Spelling.reserved ↔ v ∈ Spelling.reserved.map Spelling.variableOf) ∧
      (first = written t ↔
        (∃ c word, t = Construct.atom.term c [.atom word] ∧ Spelling.isBareAtom word ∧
          v = Spelling.variableOf word) ∨
        ∃ what, t.Malformed what ∧ v = Spelling.variableOf what.text) := by
  intro written first
  have text : first = Spelling.ofVariable v := Rendering.text_ofVariable_of_free v free
  have text' : written (Construct.variable.term b [.atom w]) = Spelling.ofVariable w :=
    Rendering.text_ofVariable_of_free w free
  rw [text, text']
  exact ⟨Spelling.ofVariable_eq_iff isVariable isVariable',
    Spelling.ofVariable_mem_reserved_iff isVariable,
    ofVariable_eq_literal_iff isVariable literal layout position scope⟩

theorem text_render_variable_apart_atom :
    let written := fun t => ((ofTerm t).render {} .pattern ∅).text
    let named := fun name => Construct.variable.term (.list []) [.atom name]
    let atom := Construct.atom.term (.list []) [.atom "x"]
    Spelling.isVariable "X" ∧ Spelling.isVariable "Y" ∧ atom.Literal ∧
      written (named "X") ≠ written (named "Y") ∧ written (named "X") ∉ Spelling.reserved ∧
      written (named "X") ≠ written atom := by
  intro written named atom
  have isVariable : Spelling.isVariable "X" := by decide
  have isVariable' : Spelling.isVariable "Y" := by decide
  have literal : atom.Literal := .atom
  have free : (∅ : Scope).pinning = false := rfl
  obtain ⟨apart, notReserved, notAtom⟩ := text_render_variable_apart isVariable isVariable' literal
    (.list []) (.list []) {} .pattern free
  refine ⟨isVariable, isVariable', literal, mt apart.1 (by decide), mt notReserved.1 (by decide),
    mt notAtom.1 ?_⟩
  rintro (⟨c, word, same, bare, -⟩ | ⟨what, -, same⟩)
  · obtain ⟨-, rfl⟩ : Term.list [] = c ∧ "x" = word := by simpa [atom, Construct.term] using same
    exact absurd bare (by decide)
  · cases what <;> exact absurd same (by decide)

/-- A reserved word with a capital letter is a variable that becomes the word, and so may become a
literal in a pattern. A placeholder with a capital letter is a variable too. -/
theorem text_render_capital_word :
    let written := fun t => ((ofTerm t).render {} .pattern ∅).text
    let named := fun name => Construct.variable.term (.list []) [.atom name]
    Spelling.isVariable "True" ∧
      written (named "True") = written (Construct.atom.term (.list []) [.atom "true"]) ∧
      Spelling.isVariable "When" ∧ written (named "When") ∈ Spelling.reserved ∧
      Spelling.isVariable "Unknown_string" ∧
      written (named "Unknown_string") =
        written (Construct.string.term (.list []) [.list [.atom "x"]]) := by
  decide

end Expr

end Legible
