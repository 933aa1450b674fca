import Legible.Proofs.Operator.Reader
import Legible.Proofs.Text.Literal

/-!
Names of functions and types, in definitions, local calls, captures and specifications.

A name with the form of an identifier stands bare and any other one is quoted, so two names are
never written alike. The reserved words have the form of an identifier too, and they alone do not
read back.
-/

set_option autoImplicit false

namespace Legible.Spelling

def IsBareRest (rest : List Char) : Prop :=
  ∃ body mark, rest = body ++ mark ∧ (∀ c ∈ body, identifierChar c) ∧ mark ∈ [[], ['?'], ['!']]

/-- A name of the form `[a-z_][a-zA-Z0-9_@]*[?!]?`. -/
def IsBareName (name : String) : Prop :=
  ∃ first rest, name.toList = first :: rest ∧ opensVariable first ∧ IsBareRest rest

/-- The name that the text of a function name says. A reserved word says none. -/
def functionOf? (text : String) : Option String :=
  match after? "unquote(:\"".toList text.toList with
  | some inside =>
    match Text.readInside inside with
    | ⟨name, .atQuote [')']⟩ => some (String.ofList name)
    | _ => none
  | none => if isIdentifier text && text ∉ reserved then some text else none

theorem isBareRest_cons_iff {c : Char} {rest : List Char} :
    IsBareRest (c :: rest) ↔
      identifierChar c ∧ IsBareRest rest ∨ (c = '?' ∨ c = '!') ∧ rest = [] := by
  constructor
  · rintro ⟨body, mark, whole, chars, isMark⟩
    cases body with
    | nil =>
      obtain rfl : c :: rest = mark := whole
      exact .inr (by simpa [or_and_right] using isMark)
    | cons d body =>
      obtain ⟨rfl, rfl⟩ : c = d ∧ rest = body ++ mark := List.cons.inj whole
      rw [List.forall_mem_cons] at chars
      exact .inl ⟨chars.1, body, mark, rfl, chars.2, isMark⟩
  · rintro (⟨isBody, body, mark, rfl, chars, isMark⟩ | ⟨isMark, rfl⟩)
    · exact ⟨c :: body, mark, rfl, List.forall_mem_cons.2 ⟨isBody, chars⟩, isMark⟩
    · exact ⟨[], [c], rfl, by simp, by simpa using isMark⟩

theorem identifierRest_iff {rest : List Char} : identifierRest rest ↔ IsBareRest rest := by
  induction rest with
  | nil => exact iff_of_true rfl ⟨[], [], rfl, by simp, by simp⟩
  | cons c rest ih =>
    rw [identifierRest, isBareRest_cons_iff, ← ih]
    by_cases isBody : identifierChar c
    · -- No mark is a character of the body.
      have noMark : ¬ (c = '?' ∨ c = '!') := by
        rintro (rfl | rfl) <;> cases isBody
      simp [isBody, noMark]
    · simp [isBody]

theorem isIdentifier_iff {name : String} : isIdentifier name ↔ IsBareName name := by
  have opens : ∀ c : Char, (c.isLower || c = '_') = opensVariable c := fun _ => rfl
  unfold isIdentifier IsBareName
  cases name.toList with
  | nil => simp
  | cons first rest => simp [opens, identifierRest_iff]

theorem IsBareName.chars {name : String} (bare : IsBareName name) :
    ∀ c ∈ name.toList, identifierChar c ∨ c = '?' ∨ c = '!' := by
  obtain ⟨first, _, whole, opens, body, mark, rfl, chars, isMark⟩ := bare
  rw [whole, List.forall_mem_cons, List.forall_mem_append]
  refine ⟨.inl (identifierChar_of_opensVariable opens), fun c member => .inl (chars c member), ?_⟩
  simp only [List.mem_cons, List.not_mem_nil, or_false] at isMark
  rcases isMark with rfl | rfl | rfl <;> simp

theorem isIdentifier_of_mem_reserved {name : String} (member : name ∈ reserved) :
    isIdentifier name := by
  have all : reserved.all isIdentifier = true := by decide
  exact List.all_eq_true.1 all name member

theorem ofFunction_of_isIdentifier {name : String} (bare : isIdentifier name) :
    ofFunction name = name :=
  if_pos bare

theorem ofFunction_of_not_isIdentifier {name : String} (notBare : ¬ isIdentifier name) :
    ofFunction name = "unquote(:\"" ++ Text.escaped name ++ "\")" := by
  rw [ofFunction, if_neg notBare]
  simp [Text.quoted, String.ext_iff]

theorem after?_ofFunction {name : String} (notBare : ¬ isIdentifier name) :
    after? "unquote(:\"".toList (ofFunction name).toList =
      some (Text.escape name.toList ++ '"' :: [')']) := by
  rw [after?_eq_some_iff, ofFunction_of_not_isIdentifier notBare]
  simp [Text.toList_escaped]

theorem after?_of_isIdentifier {name : String} (bare : isIdentifier name) :
    after? "unquote(:\"".toList name.toList = none := by
  refine Option.eq_none_iff_forall_ne_some.2 fun inside found => ?_
  rw [after?_eq_some_iff] at found
  have paren : '(' ∈ name.toList := found ▸ List.mem_append_left inside (by decide)
  exact absurd ((isIdentifier_iff.1 bare).chars '(' paren) (by decide)

theorem functionOf?_ofFunction (name : String) :
    functionOf? (ofFunction name) = if name ∈ reserved then none else some name := by
  by_cases bare : isIdentifier name
  · rw [ofFunction_of_isIdentifier bare, functionOf?, after?_of_isIdentifier bare]
    by_cases member : name ∈ reserved <;> simp [bare, member]
  · have free : name ∉ reserved := mt isIdentifier_of_mem_reserved bare
    rw [if_neg free, functionOf?, after?_ofFunction bare]
    simp [Text.readInside_escape_quote]

theorem ofFunction_mem_reserved_iff {name : String} :
    ofFunction name ∈ reserved ↔ name ∈ reserved := by
  by_cases bare : isIdentifier name
  · rw [ofFunction_of_isIdentifier bare]
  · refine iff_of_false (fun member => ?_) (mt isIdentifier_of_mem_reserved bare)
    have word := after?_of_isIdentifier (isIdentifier_of_mem_reserved member)
    rw [after?_ofFunction bare] at word
    cases word

theorem ofFunction_injective : Function.Injective ofFunction := by
  intro name other same
  have alike : name ∈ reserved ↔ other ∈ reserved := by
    rw [← ofFunction_mem_reserved_iff, same, ofFunction_mem_reserved_iff]
  by_cases member : name ∈ reserved
  · have bare := isIdentifier_of_mem_reserved member
    have bare' := isIdentifier_of_mem_reserved (alike.1 member)
    rwa [ofFunction_of_isIdentifier bare, ofFunction_of_isIdentifier bare'] at same
  · have read := functionOf?_ofFunction name
    rw [same, functionOf?_ofFunction, if_neg member, if_neg (mt alike.2 member)] at read
    exact (Option.some.inj read).symm

/-- The name of a function is written bare, in the form of an identifier, or between quotes that
read back as the name. Two names are never written alike, and every name but a reserved word reads
back; a reserved word stands bare like any identifier. -/
theorem ofFunction_reads_back (name : String) :
    (ofFunction name = name ∧ IsBareName name ∨
      ∃ inside, ofFunction name = "unquote(:\"" ++ inside ++ "\")" ∧ Text.Quotes inside name) ∧
    (ofFunction name ∈ reserved ↔ name ∈ reserved) ∧
    functionOf? (ofFunction name) = (if name ∈ reserved then none else some name) ∧
    ∀ other, ofFunction name = ofFunction other ↔ name = other := by
  refine ⟨?_, ofFunction_mem_reserved_iff, functionOf?_ofFunction name,
    fun _ => ofFunction_injective.eq_iff⟩
  by_cases bare : isIdentifier name
  · exact .inl ⟨ofFunction_of_isIdentifier bare, isIdentifier_iff.1 bare⟩
  · exact .inr ⟨Text.escaped name, ofFunction_of_not_isIdentifier bare, Text.quotes_escaped name⟩

/-- A reserved word has the form of an identifier, so it is not quoted. -/
theorem ofFunction_do :
    "do" ∈ reserved ∧ ofFunction "do" = "do" ∧ functionOf? (ofFunction "do") = none ∧
      functionOf? "unquote(:\"do\")" = some "do" := by
  decide

end Legible.Spelling
