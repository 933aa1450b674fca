import Mathlib.Computability.RegularExpressions
import Legible.Proofs.Spelling.Atom

/-!
The forms of identifiers and aliases, as regular expressions over ranges of characters.

A recogniser reads a name once from the left. Each one accepts exactly the words of its form, over
all characters there are; an alias is also what a split at the dots makes of it.
-/

set_option autoImplicit false

namespace Legible.Spelling

def oneOf (chars : List Char) : RegularExpression Char :=
  (chars.map RegularExpression.char).sum

def smallLetters : List Char := ('a' ...= 'z').toList

def capitalLetters : List Char := ('A' ...= 'Z').toList

def decimalDigits : List Char := ('0' ...= '9').toList

def wordChars : List Char := smallLetters ++ capitalLetters ++ decimalDigits ++ ['_']

/-- The form `[a-z_][a-zA-Z0-9_@]*[?!]?`. -/
def identifierForm : RegularExpression Char :=
  oneOf (smallLetters ++ ['_']) * ((oneOf (wordChars ++ ['@'])).star * (1 + oneOf ['?', '!']))

/-- The form `[A-Z][A-Za-z0-9_]*`. -/
def segmentForm : RegularExpression Char :=
  oneOf capitalLetters * (oneOf wordChars).star

/-- The form `s(\.s)*`, where `s` is the form of a segment. -/
def aliasForm : RegularExpression Char :=
  segmentForm * (.char '.' * segmentForm).star

theorem mem_range {first last c : Char} :
    c ∈ (first ...= last).toList ↔ first.toNat ≤ c.toNat ∧ c.toNat ≤ last.toNat := by
  rw [Std.Rcc.mem_toList_iff_mem, Std.Rcc.mem_iff, Char.le_def, Char.le_def,
    UInt32.le_iff_toNat_le, UInt32.le_iff_toNat_le]
  rfl

theorem mem_smallLetters {c : Char} : c ∈ smallLetters ↔ c.isLower :=
  mem_range.trans isLower_iff.symm

theorem mem_capitalLetters {c : Char} : c ∈ capitalLetters ↔ c.isUpper :=
  mem_range.trans isUpper_iff.symm

theorem mem_decimalDigits {c : Char} : c ∈ decimalDigits ↔ c.isDigit :=
  mem_range.trans Char.isDigit_iff_toNat.symm

theorem isAlphanum_iff {c : Char} : c.isAlphanum ↔ c.isLower ∨ c.isUpper ∨ c.isDigit := by
  have unfolded : c.isAlphanum = (c.isUpper || c.isLower || c.isDigit) := rfl
  rw [unfolded, Bool.or_eq_true, Bool.or_eq_true, or_assoc, or_left_comm]

theorem mem_wordChars {c : Char} : c ∈ wordChars ↔ segmentChar c := by
  simp [wordChars, mem_smallLetters, mem_capitalLetters, mem_decimalDigits, segmentChar,
    isAlphanum_iff, or_assoc]

theorem mem_oneOf {chars word : List Char} :
    word ∈ (oneOf chars).matches' ↔ ∃ c ∈ chars, word = [c] := by
  induction chars with
  | nil => exact iff_of_false (Language.notMem_zero word) (by simp)
  | cons c chars ih =>
    have more : (oneOf (c :: chars)).matches' = {[c]} + (oneOf chars).matches' := rfl
    have one : word ∈ ({[c]} : Language Char) ↔ word = [c] := Iff.rfl
    rw [more, Language.mem_add, ih, one]
    simp

theorem mem_oneOf_mul {chars word : List Char} {later : RegularExpression Char} :
    word ∈ (oneOf chars * later).matches' ↔
      ∃ c rest, word = c :: rest ∧ c ∈ chars ∧ rest ∈ later.matches' := by
  rw [RegularExpression.matches'_mul, Language.mem_mul]
  constructor
  · rintro ⟨start, matched, rest, isLater, rfl⟩
    obtain ⟨c, member, rfl⟩ := mem_oneOf.1 matched
    exact ⟨c, rest, rfl, member, isLater⟩
  · rintro ⟨c, rest, rfl, member, isLater⟩
    exact ⟨[c], mem_oneOf.2 ⟨c, member, rfl⟩, rest, isLater, rfl⟩

theorem mem_star_oneOf {chars word : List Char} :
    word ∈ (oneOf chars).star.matches' ↔ ∀ c ∈ word, c ∈ chars := by
  rw [RegularExpression.matches'_star, Language.mem_kstar]
  constructor
  · rintro ⟨words, rfl, each⟩ c member
    obtain ⟨single, inWords, inSingle⟩ := List.mem_flatten.1 member
    obtain ⟨d, inChars, rfl⟩ := mem_oneOf.1 (each single inWords)
    exact List.mem_singleton.1 inSingle ▸ inChars
  · intro all
    refine ⟨word.map fun c => [c], ?_, ?_⟩
    · rw [← List.flatMap_def, List.flatMap_singleton']
    · rw [List.forall_mem_map]
      exact fun c member => mem_oneOf.2 ⟨c, all c member, rfl⟩

theorem mem_identifierRest {rest : List Char} :
    rest ∈ ((oneOf (wordChars ++ ['@'])).star * (1 + oneOf ['?', '!'])).matches' ↔
      IsBareRest rest := by
  have isBody : ∀ c, c ∈ wordChars ++ ['@'] ↔ identifierChar c := by
    simp [mem_wordChars, segmentChar, identifierChar]
  have isMark : ∀ mark,
      mark ∈ (1 + oneOf ['?', '!']).matches' ↔ mark ∈ [[], ['?'], ['!']] := by
    intro mark
    rw [RegularExpression.matches'_add, Language.mem_add, mem_oneOf,
      RegularExpression.matches'_epsilon, Language.mem_one]
    simp
  rw [RegularExpression.matches'_mul, Language.mem_mul]
  constructor
  · rintro ⟨body, chars, mark, marked, rfl⟩
    exact ⟨body, mark, rfl, fun c member => (isBody c).1 (mem_star_oneOf.1 chars c member),
      (isMark mark).1 marked⟩
  · rintro ⟨body, mark, rfl, chars, marked⟩
    exact ⟨body, mem_star_oneOf.2 fun c member => (isBody c).2 (chars c member), mark,
      (isMark mark).2 marked, rfl⟩

theorem mem_identifierForm {name : String} :
    name.toList ∈ identifierForm.matches' ↔ IsBareName name := by
  have opens : ∀ c, c ∈ smallLetters ++ ['_'] ↔ opensVariable c := by
    simp [mem_smallLetters, opensVariable]
  rw [identifierForm, mem_oneOf_mul]
  simp only [mem_identifierRest, opens, IsBareName]

theorem mem_segmentForm {segment : List Char} :
    segment ∈ segmentForm.matches' ↔ IsSegment segment := by
  simp only [segmentForm, mem_oneOf_mul, mem_star_oneOf, mem_capitalLetters, mem_wordChars,
    IsSegment]

theorem mem_dot_mul_segmentForm {word : List Char} :
    word ∈ (.char '.' * segmentForm).matches' ↔
      ∃ segment, word = '.' :: segment ∧ IsSegment segment := by
  rw [RegularExpression.matches'_mul, Language.mem_mul]
  constructor
  · rintro ⟨dot, rfl, segment, isSegment, rfl⟩
    exact ⟨segment, rfl, mem_segmentForm.1 isSegment⟩
  · rintro ⟨segment, rfl, isSegment⟩
    exact ⟨['.'], rfl, segment, mem_segmentForm.2 isSegment, rfl⟩

/-- Segments in a row, with a dot before each but the first. -/
theorem isAlias_append_flatten {words : List (List Char)}
    (each : ∀ word ∈ words, ∃ segment, word = '.' :: segment ∧ IsSegment segment)
    {segment : List Char} (isSegment : IsSegment segment) : IsAlias (segment ++ words.flatten) := by
  induction words generalizing segment with
  | nil =>
    rw [List.flatten_nil, List.append_nil]
    exact .single isSegment
  | cons word words ih =>
    rw [List.forall_mem_cons] at each
    obtain ⟨⟨next, rfl, isNext⟩, later⟩ := each
    rw [List.flatten_cons, List.cons_append]
    exact .more isSegment (ih later isNext)

theorem mem_aliasForm {name : List Char} : name ∈ aliasForm.matches' ↔ IsAlias name := by
  rw [aliasForm, RegularExpression.matches'_mul, RegularExpression.matches'_star, Language.mem_mul]
  constructor
  · rintro ⟨segment, isSegment, tail, later, rfl⟩
    obtain ⟨words, rfl, each⟩ := Language.mem_kstar.1 later
    exact isAlias_append_flatten (fun word member => mem_dot_mul_segmentForm.1 (each word member))
      (mem_segmentForm.1 isSegment)
  · intro segments
    induction segments with
    | @single segment isSegment =>
      exact ⟨segment, mem_segmentForm.2 isSegment, [], Language.nil_mem_kstar _, List.append_nil _⟩
    | @more segment rest isSegment _ ih =>
      obtain ⟨next, isNext, tail, later, rfl⟩ := ih
      obtain ⟨words, rfl, each⟩ := Language.mem_kstar.1 later
      -- What was the first segment of the rest is now the first one that is repeated.
      have dotted := mem_dot_mul_segmentForm.2 ⟨next, rfl, mem_segmentForm.1 isNext⟩
      exact ⟨segment, mem_segmentForm.2 isSegment, (('.' :: next) :: words).flatten,
        Language.join_mem_kstar (List.forall_mem_cons.2 ⟨dotted, each⟩), by simp⟩

theorem isAlias_iff_join {name : List Char} : IsAlias name ↔
    ∃ segments, segments ≠ [] ∧ (∀ segment ∈ segments, IsSegment segment) ∧
      name = ['.'].intercalate segments := by
  constructor
  · intro segments
    induction segments with
    | @single segment isSegment => exact ⟨[segment], by simp, by simpa using isSegment, by simp⟩
    | @more segment rest isSegment _ ih =>
      obtain ⟨segments, nonempty, each, rfl⟩ := ih
      refine ⟨segment :: segments, by simp, List.forall_mem_cons.2 ⟨isSegment, each⟩, ?_⟩
      rw [List.intercalate_cons_of_ne_nil nonempty, List.append_assoc, List.singleton_append]
  · rintro ⟨segments, nonempty, each, rfl⟩
    induction segments with
    | nil => exact absurd rfl nonempty
    | cons segment segments ih =>
      rw [List.forall_mem_cons] at each
      by_cases single : segments = []
      · subst single
        simpa using IsAlias.single each.1
      · rw [List.intercalate_cons_of_ne_nil single, List.append_assoc, List.singleton_append]
        exact .more each.1 (ih single each.2)

theorem IsSegment.noDot {segment : List Char} (isSegment : IsSegment segment) : '.' ∉ segment :=
  fun member => absurd (isSegment.chars '.' member) (by decide)

theorem isAlias_iff_splitOn {name : List Char} :
    IsAlias name ↔ ∀ segment ∈ name.splitOn '.', IsSegment segment := by
  rw [isAlias_iff_join]
  constructor
  · rintro ⟨segments, nonempty, each, rfl⟩
    rwa [List.splitOn_intercalate '.' (fun segment member => (each segment member).noDot) nonempty]
  · intro each
    exact ⟨name.splitOn '.', List.splitOn_ne_nil '.' name, each, (List.intercalate_splitOn '.').symm⟩

/-- An atom under the module namespace is written as an alias or between quotes. -/
theorem ofAtom_append (name : String) : ofAtom ("Elixir." ++ name) =
    if isAlias name.toList then name else ":" ++ Text.quoted ("Elixir." ++ name) := by
  have chars : ("Elixir." ++ name).toList = 'E' :: ("lixir." ++ name).toList := by simp
  have notBare : ¬ isBareAtom ("Elixir." ++ name) := fun bare => by
    have small := startsVariable_of_isBareAtom bare
    rw [startsVariable_cons chars] at small
    cases small
  have notIdentifier : ¬ isIdentifier ("Elixir." ++ name) := by
    simp [isIdentifier]
  unfold ofAtom
  rw [if_neg notBare]
  by_cases accepted : isAlias name.toList
  · rw [alias?_eq_some_iff.2 ⟨rfl, accepted⟩, if_pos accepted]
  · have none : alias? ("Elixir." ++ name) = none := by
      refine Option.eq_none_iff_forall_ne_some.2 fun found isFound => ?_
      obtain ⟨same, valid⟩ := alias?_eq_some_iff.1 isFound
      rw [String.append_right_inj] at same
      exact accepted (same ▸ valid)
    rw [none, if_neg accepted, if_neg notIdentifier]

theorem toNat_lt_of_identifierChar {c : Char} (isBody : identifierChar c) : c.toNat < 128 := by
  simp only [identifierChar, Bool.or_eq_true, decide_eq_true_eq, isAlphanum_iff] at isBody
  rcases isBody with ((lower | upper | digit) | rfl) | rfl
  · have := (isLower_iff.1 lower).2
    omega
  · have := (isUpper_iff.1 upper).2
    omega
  · exact (Char.isDigit_iff_toNat.1 digit).2.trans_lt (by decide)
  · decide
  · decide

theorem IsBareName.toNat_lt {name : String} (bare : IsBareName name) :
    ∀ c ∈ name.toList, c.toNat < 128 := by
  intro c member
  rcases bare.chars c member with isBody | rfl | rfl
  · exact toNat_lt_of_identifierChar isBody
  · decide
  · decide

theorem IsAlias.toNat_lt {name : List Char} (isAlias : IsAlias name) :
    ∀ c ∈ name, c.toNat < 128 := by
  intro c member
  rcases isAlias.chars c member with isBody | rfl
  · exact toNat_lt_of_identifierChar (Bool.or_eq_true_iff.2 (.inl isBody))
  · decide

/-- A name is an identifier, or an alias, exactly if it matches the form of one, and then all its
characters are ASCII. An alias is one segment or several with a dot between two of them, so a split
at the dots gives segments only. An atom is written as an alias exactly if one follows the module
namespace. -/
theorem recognisers_accept_forms (name : String) :
    (isIdentifier name ↔ name.toList ∈ identifierForm.matches') ∧
    (isAlias name.toList ↔ name.toList ∈ aliasForm.matches') ∧
    (isAlias name.toList ↔
      ∃ segments, segments ≠ [] ∧ (∀ segment ∈ segments, segment ∈ segmentForm.matches') ∧
        name.toList = ['.'].intercalate segments) ∧
    (isAlias name.toList ↔
      ∀ segment ∈ name.toList.splitOn '.', segment ∈ segmentForm.matches') ∧
    (∀ atom, alias? atom = some name ↔
      atom = "Elixir." ++ name ∧ name.toList ∈ aliasForm.matches') ∧
    ofAtom ("Elixir." ++ name) =
      (if name.toList ∈ aliasForm.matches' then name
      else ":" ++ Text.quoted ("Elixir." ++ name)) ∧
    (isIdentifier name ∨ isAlias name.toList → ∀ c ∈ name.toList, c.toNat < 128) := by
  have identifier : isIdentifier name ↔ name.toList ∈ identifierForm.matches' :=
    isIdentifier_iff.trans mem_identifierForm.symm
  have «alias» : isAlias name.toList ↔ name.toList ∈ aliasForm.matches' :=
    isAlias_iff.trans mem_aliasForm.symm
  refine ⟨identifier, «alias», ?_, ?_, fun atom => ?_, ?_, ?_⟩
  · simp only [isAlias_iff, isAlias_iff_join, mem_segmentForm]
  · simp only [isAlias_iff, isAlias_iff_splitOn, mem_segmentForm]
  · rw [alias?_eq_some_iff, «alias»]
  · simp only [ofAtom_append, «alias»]
  · rintro (isIdentifier | accepted)
    · exact (isIdentifier_iff.1 isIdentifier).toNat_lt
    · exact (isAlias_iff.1 accepted).toNat_lt

/-- A mark stands at the end only, a segment is never empty, and letters are those of ASCII. -/
example :
    ["_", "a@b_2!", "ok?", "", "a?b", "ok?!", "2a", "A", "é"].map isIdentifier =
      [true, true, true, false, false, false, false, false, false] ∧
    ["Foo", "Foo.Bar_2", "", "Foo.", ".Foo", "Foo..Bar", "Foo.bar", "É"].map
        (fun name => isAlias name.toList) =
      [true, true, false, false, false, false, false, false] := by
  decide

end Legible.Spelling
