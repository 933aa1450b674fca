import Legible.Proofs.Guard.Formula
import Legible.Proofs.Guard.Token

/-!
A reader of guards.

Parentheses group, a name before a parenthesis is a call, and operators before their operand bind
tighter than any between two operands. The operators of one level are then grouped by how tight
they bind. A guard is the alternatives between which `when` stands outside of all parentheses.
-/

set_option autoImplicit false

namespace Legible.Guard

namespace Token

def binary? : Token → Option String
  | .sign text | .word text => if text ∈ Operator.signs then some text else none
  | .opening | .closing | .comma => none

def unary? : Token → Option String
  | .sign "-" => some "-"
  | .sign "+" => some "+"
  | .word "not" => some "not "
  | _ => none

end Token

def Formula.ofLeaf? : Reading → Option Formula
  | .number value => some (.integer value)
  | .variable name => some (.variable name)
  | .prefixed .. | .row .. | .called .. => none

def leaf? (text : String) : Option Formula :=
  if text = "true" then some (.constant true)
  else if text = "false" then some (.constant false)
  else (Operator.leaf? text.toList).bind Formula.ofLeaf?

mutual

/-- One level of operators. `fuel` bounds the nesting of calls. -/
def readRow : Nat → List Token → Option (Row × List Token)
  | 0, _ => none
  | fuel + 1, text => do
    let (first, rest) ← readOperand fuel text
    let (later, rest) ← readLater fuel rest
    return ({ first, later }, rest)

def readLater : Nat → List Token → Option (List (String × Formula) × List Token)
  | 0, _ => none
  | _, [] => some ([], [])
  | fuel + 1, token :: rest =>
    match token.binary? with
    | some sign => do
      let (operand, rest) ← readOperand fuel rest
      let (later, rest) ← readLater fuel rest
      return ((sign, operand) :: later, rest)
    | none => some ([], token :: rest)

def readOperand : Nat → List Token → Option (Formula × List Token)
  | 0, _ | _, [] => none
  | fuel + 1, token :: rest =>
    match token.unary? with
    | some sign => do
      let (operand, rest) ← readOperand fuel rest
      return (.prefixed sign operand, rest)
    | none =>
      match token with
      | .opening =>
        match readRow fuel rest with
        | some (row, .closing :: rest) => do return (← row.group, rest)
        | _ => none
      | .word text =>
        match rest with
        | .opening :: .closing :: rest =>
          if text ∈ Spelling.reserved then none else some (.called text [], rest)
        | .opening :: rest =>
          if text ∈ Spelling.reserved then none
          else do
            let (arguments, rest) ← readArguments fuel rest
            return (.called text arguments, rest)
        | rest => do return (← leaf? text, rest)
      | .closing | .comma | .sign _ => none

def readArguments : Nat → List Token → Option (List Formula × List Token)
  | 0, _ => none
  | fuel + 1, text =>
    match readRow fuel text with
    | some (row, .comma :: rest) => do
      let (later, rest) ← readArguments fuel rest
      return ((← row.group) :: later, rest)
    | some (row, .closing :: rest) => do return ([← row.group], rest)
    | _ => none

end

def readTokens? (text : List Token) : Option Formula :=
  match readRow (2 * text.length + 1) text with
  | some (row, []) => row.group
  | _ => none

def read? (text : String) : Option Formula :=
  readTokens? (tokens text.toList)

def Token.depthAfter (depth : Nat) : Token → Nat
  | .opening => depth + 1
  | .closing => depth - 1
  | _ => depth

/-- The parts of a text between which `when` stands at depth zero. -/
def splitWhen : Nat → List Token → List (List Token)
  | _, [] => [[]]
  | depth, token :: rest =>
    if depth = 0 ∧ token = .word "when" then [] :: splitWhen 0 rest
    else (splitWhen (token.depthAfter depth) rest).modifyHead (token :: ·)

def readAlternatives (text : String) : List (Option Formula) :=
  (splitWhen 0 (tokens text.toList)).map readTokens?

/-- Tokens that read as an operand, whatever follows them. -/
def ReadsOperand (text : List Token) (f : Formula) : Prop :=
  ∀ (fuel : Nat) (tail : List Token), tail.head? ≠ some .opening → 2 * text.length ≤ fuel →
    readOperand fuel (text ++ tail) = some (f, tail)

def endsRow (tail : List Token) : Prop :=
  tail.head? ≠ some .opening ∧ tail.head?.bind Token.binary? = none

def ReadsRow (text : List Token) (row : Row) : Prop :=
  ∀ (fuel : Nat) (tail : List Token), endsRow tail → 2 * text.length + 1 ≤ fuel →
    readRow fuel (text ++ tail) = some (row, tail)

def ReadsArguments (text : List Token) (arguments : List Formula) : Prop :=
  ∀ (fuel : Nat) (tail : List Token), 2 * text.length + 2 ≤ fuel →
    readArguments fuel (text ++ .closing :: tail) = some (arguments, tail)

inductive SpellsRow : List Token → Row → Prop
  | operand {text : List Token} {f : Formula} : ReadsOperand text f →
      SpellsRow text { first := f, later := [] }
  | cons {text rest : List Token} {token : Token} {sign : String} {f : Formula} {row : Row} :
      ReadsOperand text f → token.binary? = some sign → SpellsRow rest row →
      SpellsRow (text ++ token :: rest) { first := f, later := (sign, row.first) :: row.later }

theorem readLater_of_endsRow {tail : List Token} (ends : endsRow tail) (fuel : Nat) :
    readLater (fuel + 1) tail = some ([], tail) := by
  cases tail with
  | nil => rfl
  | cons token rest =>
    have notInfix : token.binary? = none := ends.2
    rw [readLater, notInfix]

/-- After an operator, the rest of a level is read as a level of its own. -/
theorem readLater_cons {token : Token} {sign : String} (known : token.binary? = some sign)
    {fuel : Nat} {rest tail : List Token} {row : Row}
    (reads : readRow (fuel + 1) rest = some (row, tail)) :
    readLater (fuel + 1) (token :: rest) = some ((sign, row.first) :: row.later, tail) := by
  simp only [readRow, Option.bind_eq_bind, Option.bind_eq_some_iff] at reads
  obtain ⟨⟨f, afterFirst⟩, first, ⟨later, afterLater⟩, more, same⟩ := reads
  cases same
  simp only [readLater, known, first, more, Option.bind_eq_bind, Option.bind_some]
  rfl

theorem readOperand_closing (fuel : Nat) (rest : List Token) :
    readOperand fuel (.closing :: rest) = none := by
  cases fuel <;> rfl

namespace ReadsOperand

theorem nonempty {text : List Token} {f : Formula} (reads : ReadsOperand text f) : text ≠ [] := by
  rintro rfl
  cases reads 0 [] (by simp) (Nat.le_refl 0)

theorem row {text : List Token} {f : Formula} (reads : ReadsOperand text f) :
    ReadsRow text { first := f, later := [] } := by
  intro fuel tail ends enough
  have := List.length_pos_iff.2 reads.nonempty
  obtain ⟨fuel, rfl⟩ := Nat.exists_eq_add_of_le' (show 2 ≤ fuel by omega)
  rw [readRow, reads (fuel + 1) tail ends.1 (by omega)]
  simp only [Option.bind_eq_bind, Option.bind_some, readLater_of_endsRow ends]
  rfl

theorem cons {text rest : List Token} {token : Token} {sign : String} {f : Formula} {row : Row}
    (reads : ReadsOperand text f) (known : token.binary? = some sign) (later : ReadsRow rest row) :
    ReadsRow (text ++ token :: rest) { first := f, later := (sign, row.first) :: row.later } := by
  intro fuel tail ends enough
  simp only [List.length_append, List.length_cons] at enough
  obtain ⟨fuel, rfl⟩ := Nat.exists_eq_add_of_le' (show 2 ≤ fuel by omega)
  -- An operator is no parenthesis, so a name before it is no call.
  have stops : (token :: (rest ++ tail)).head? ≠ some .opening := by
    rintro same
    cases same
    cases known
  have more := readLater_cons known (later (fuel + 1) tail ends (by omega))
  rw [List.append_assoc, List.cons_append, readRow, reads (fuel + 1) _ stops (by omega)]
  simp only [Option.bind_eq_bind, Option.bind_some, more]
  rfl

theorem prefixed {token : Token} {sign : String} (known : token.unary? = some sign)
    {text : List Token} {f : Formula} (reads : ReadsOperand text f) :
    ReadsOperand (token :: text) (.prefixed sign f) := by
  intro fuel tail ends enough
  rw [List.length_cons] at enough
  obtain ⟨fuel, rfl⟩ := Nat.exists_eq_add_of_le' (show 1 ≤ fuel by omega)
  have inner := reads fuel tail ends (by omega)
  rw [List.cons_append, readOperand.eq_def]
  simp only [known, inner, Option.bind_eq_bind, Option.bind_some]
  rfl

/-- A word that is no operator is read as it stands. -/
theorem leaf {text : String} {f : Formula} (leaf : leaf? text = some f)
    (free : (Token.word text).unary? = none) : ReadsOperand [.word text] f := by
  intro fuel tail ends enough
  obtain ⟨fuel, rfl⟩ := Nat.exists_eq_add_of_le' (show 1 ≤ fuel by simp at enough; omega)
  rw [List.cons_append, List.nil_append, readOperand.eq_def]
  simp only [free, leaf, Option.bind_eq_bind, Option.bind_some]
  cases tail with
  | nil => rfl
  | cons token rest =>
    cases token with
    | opening => exact absurd rfl ends
    | closing | comma | word | sign => rfl

end ReadsOperand

theorem Token.unary?_word {text : String} (noOperator : text ≠ "not") :
    (Token.word text).unary? = none := by
  unfold unary?
  split
  next same => cases same
  next same => cases same
  next same =>
    cases same
    exact absurd rfl noOperator
  next => rfl

theorem ne_of_notMem_reserved {text word : String} (free : text ∉ Spelling.reserved)
    (reserved : word ∈ Spelling.reserved) : text ≠ word := by
  rintro rfl
  exact free reserved

namespace ReadsOperand

theorem call_nil {text : String} (free : text ∉ Spelling.reserved) :
    ReadsOperand [.word text, .opening, .closing] (.called text []) := by
  intro fuel tail ends enough
  obtain ⟨fuel, rfl⟩ := Nat.exists_eq_add_of_le' (show 1 ≤ fuel by simp at enough; omega)
  have whole : [.word text, .opening, .closing] ++ tail =
      Token.word text :: .opening :: .closing :: tail := rfl
  rw [whole, readOperand.eq_def]
  simp only [Token.unary?_word (ne_of_notMem_reserved free (by decide)), if_neg free]

theorem call {text : String} (free : text ∉ Spelling.reserved) {inner : List Token}
    {arguments : List Formula} (reads : ReadsArguments inner arguments) :
    ReadsOperand (.word text :: .opening :: (inner ++ [.closing])) (.called text arguments) := by
  intro fuel tail ends enough
  simp only [List.length_append, List.length_cons, List.length_nil] at enough
  obtain ⟨fuel, rfl⟩ := Nat.exists_eq_add_of_le' (show 2 ≤ fuel by omega)
  have whole : Token.word text :: .opening :: (inner ++ [.closing]) ++ tail =
      .word text :: .opening :: (inner ++ .closing :: tail) := by simp
  have read := reads (fuel + 1) tail (by omega)
  -- Arguments do not start with the parenthesis that would close a call without any.
  have starts : ∀ rest, inner ++ .closing :: tail ≠ .closing :: rest := by
    intro rest same
    rw [same, readArguments, readRow.eq_def] at read
    cases fuel <;> simp [readOperand_closing] at read
  rw [whole, readOperand.eq_def]
  simp only [Token.unary?_word (ne_of_notMem_reserved free (by decide)), if_neg free, read,
    Option.bind_eq_bind, Option.bind_some]
  rfl

end ReadsOperand

theorem SpellsRow.reads {text : List Token} {row : Row} (spells : SpellsRow text row) :
    ReadsRow text row := by
  induction spells with
  | operand reads => exact reads.row
  | cons reads known _ ih => exact reads.cons known ih

theorem SpellsRow.append {first second : List Token} {row row' : Row} {token : Token}
    {sign : String} (firsts : SpellsRow first row) (known : token.binary? = some sign)
    (seconds : SpellsRow second row') :
    SpellsRow (first ++ token :: second) (row.append sign row') := by
  induction firsts with
  | operand reads => exact .cons reads known seconds
  | cons reads known' _ ih =>
    rw [List.append_assoc, List.cons_append]
    exact .cons reads known' ih

namespace ReadsRow

variable {text : List Token} {row : Row} {f : Formula}

theorem parenthesized (reads : ReadsRow text row) (grouped : row.group = some f) :
    ReadsOperand (.opening :: (text ++ [.closing])) f := by
  intro fuel tail ends enough
  simp only [List.length_append, List.length_cons, List.length_nil] at enough
  obtain ⟨fuel, rfl⟩ := Nat.exists_eq_add_of_le' (show 1 ≤ fuel by omega)
  have inner := reads fuel (.closing :: tail) ⟨by simp, rfl⟩ (by omega)
  have whole : Token.opening :: (text ++ [.closing]) ++ tail =
      .opening :: (text ++ .closing :: tail) := by simp
  rw [whole, readOperand, inner]
  simp only [grouped, Option.bind_eq_bind, Option.bind_some]
  rfl

theorem argument (reads : ReadsRow text row) (grouped : row.group = some f) :
    ReadsArguments text [f] := by
  intro fuel tail enough
  obtain ⟨fuel, rfl⟩ := Nat.exists_eq_add_of_le' (show 1 ≤ fuel by omega)
  rw [readArguments, reads fuel (.closing :: tail) ⟨by simp, rfl⟩ (by omega)]
  simp only [grouped, Option.bind_eq_bind, Option.bind_some]
  rfl

theorem arguments (reads : ReadsRow text row) (grouped : row.group = some f) {rest : List Token}
    {later : List Formula} (more : ReadsArguments rest later) :
    ReadsArguments (text ++ .comma :: rest) (f :: later) := by
  intro fuel tail enough
  simp only [List.length_append, List.length_cons] at enough
  obtain ⟨fuel, rfl⟩ := Nat.exists_eq_add_of_le' (show 1 ≤ fuel by omega)
  have first := reads fuel (.comma :: (rest ++ .closing :: tail)) ⟨by simp, rfl⟩ (by omega)
  have whole : text ++ .comma :: rest ++ .closing :: tail =
      text ++ .comma :: (rest ++ .closing :: tail) := by simp
  rw [whole, readArguments, first]
  simp only [more fuel tail (by omega), grouped, Option.bind_eq_bind, Option.bind_some]
  rfl

theorem readTokens? (reads : ReadsRow text row) (grouped : row.group = some f) :
    readTokens? text = some f := by
  have whole := reads (2 * text.length + 1) [] ⟨by simp, rfl⟩ (Nat.le_refl _)
  rw [List.append_nil] at whole
  rw [Guard.readTokens?, whole, ← grouped]

end ReadsRow

/-- Tokens that hold no top level `when` and close what they open. -/
def Whole (text : List Token) : Prop :=
  ∀ (depth : Nat) (rest : List Token),
    splitWhen depth (text ++ rest) = (splitWhen depth rest).modifyHead (text ++ ·)

namespace Whole

theorem nil : Whole [] := fun depth rest => (congrFun List.modifyHead_id (splitWhen depth rest)).symm

theorem token {token : Token} (flat : ∀ depth, token.depthAfter depth = depth)
    (free : token ≠ .word "when") : Whole [token] := by
  intro depth rest
  simp [splitWhen, free, flat]

theorem append {first second : List Token} (firsts : Whole first) (seconds : Whole second) :
    Whole (first ++ second) := by
  intro depth rest
  rw [List.append_assoc, firsts, seconds, List.modifyHead_modifyHead]
  simp [Function.comp_def]

theorem parenthesized {text : List Token} (whole : Whole text) :
    Whole (.opening :: (text ++ [.closing])) := by
  intro depth rest
  have inner := whole (depth + 1) (.closing :: rest)
  have nested : Token.opening :: (text ++ [.closing]) ++ rest =
      .opening :: (text ++ .closing :: rest) := by simp
  rw [nested]
  simp [splitWhen, Token.depthAfter, inner, Function.comp_def]

theorem splitWhen_eq {text : List Token} (whole : Whole text) : splitWhen 0 text = [text] := by
  simpa [splitWhen] using whole 0 []

theorem splitWhen_cons {text : List Token} (whole : Whole text) (rest : List Token) :
    splitWhen 0 (text ++ .word "when" :: rest) = text :: splitWhen 0 rest := by
  simp [whole 0, splitWhen]

end Whole

end Legible.Guard
