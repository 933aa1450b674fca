import Legible.Operator
import Legible.Proofs.Spelling.Variable

/-!
A reader of operator texts.

Parentheses group, a word before a parenthesis is a call, and an operator before its operand binds
tighter than any between two operands. Nothing more is known of operators: those between the
operands of one level are read as a row, without precedence and without associativity.
-/

set_option autoImplicit false

namespace Legible

inductive Reading where
  | number (value : Nat)
  | variable (name : String)
  | prefixed (sign : String) (operand : Reading)
  | row (first : Reading) (later : List (String × Reading))
  | called (function : String) (arguments : List Reading)
  deriving Repr

namespace Spelling

def reserved : List String := [
  "true", "false", "nil", "when", "and", "or", "not", "in", "fn", "do", "end", "catch", "rescue",
  "after", "else"]

end Spelling

namespace Operator

def signs : List String :=
  binaryTable.filterMap fun entry =>
    match entry.2 with
    | .infixed sign => some sign
    | _ => none

def wordChar (c : Char) : Bool :=
  Spelling.identifierChar c || c = '.' || c = ':'

def isCallee (function : String) : Bool :=
  !function.toList.isEmpty && function.toList.all wordChar

/-- Whether an operator between two operands can be told from its text. -/
def isBinaryForm : Operator → Bool
  | .infixed sign => signs.contains sign
  | .called function => isCallee function
  | .prefixed _ => false

def isUnaryForm : Operator → Bool
  | .prefixed sign => ["-", "+", "not "].contains sign
  | .called function => isCallee function
  | .infixed _ => false

theorem isBinaryForm_of_mem : ∀ entry ∈ binaryTable, isBinaryForm entry.2 := by
  decide

theorem isUnaryForm_of_mem : ∀ entry ∈ unaryTable, isUnaryForm entry.2 := by
  decide

theorem notMem_of_mem_signs : ∀ sign ∈ signs, ' ' ∉ sign.toList := by
  decide

theorem mem_of_lookup {table : List (String × Operator)} {name : String} {form : Operator}
    (found : table.lookup name = some form) : (name, form) ∈ table := by
  obtain ⟨before, after, rfl, -⟩ := List.lookup_eq_some_iff.1 found
  simp

theorem binary?_cases {name : String} (known : (binary? name).isSome) :
    (∃ sign ∈ signs, binary? name = some (.infixed sign)) ∨
      ∃ function, isCallee function ∧ binary? name = some (.called function) := by
  obtain ⟨form, found⟩ := Option.isSome_iff_exists.1 known
  have told := isBinaryForm_of_mem _ (mem_of_lookup found)
  cases form with
  | infixed sign => exact .inl ⟨sign, List.contains_iff_mem.1 told, found⟩
  | called function => exact .inr ⟨function, told, found⟩
  | prefixed => cases told

theorem unary?_cases {name : String} (known : (unary? name).isSome) :
    (∃ sign ∈ ["-", "+", "not "], unary? name = some (.prefixed sign)) ∨
      ∃ function, isCallee function ∧ unary? name = some (.called function) := by
  obtain ⟨form, found⟩ := Option.isSome_iff_exists.1 known
  have told := isUnaryForm_of_mem _ (mem_of_lookup found)
  cases form with
  | prefixed sign => exact .inl ⟨sign, List.contains_iff_mem.1 told, found⟩
  | called function => exact .inr ⟨function, told, found⟩
  | infixed => cases told

def sign? : List Char → Option (String × List Char)
  | ' ' :: text =>
    match text.dropWhile (· ≠ ' ') with
    | ' ' :: rest =>
      let sign := String.ofList (text.takeWhile (· ≠ ' '))
      if sign ∈ signs then some (sign, rest) else none
    | _ => none
  | _ => none

/-- Whether a text would make one longer sign of a sign right before it. -/
def joinsSign (text : List Char) : Bool :=
  text.head? = some '-' || text.head? = some '+'

/-- A word that is no call: a number, or the name that a variable has in a program. -/
def leaf? : List Char → Option Reading
  | [] => none
  | first :: rest =>
    if (first :: rest).all Char.isDigit then some (.number (Nat.ofDigitChars 10 (first :: rest) 0))
    else if Spelling.opensVariable first && rest.all Spelling.identifierChar &&
        String.ofList (first :: rest) ∉ Spelling.reserved then
      some (.variable (String.ofList (first.toUpper :: rest)))
    else none

def endsWord : List Char → Bool
  | [] => true
  | c :: _ => !wordChar c && c ≠ '('

def endsLevel (text : List Char) : Bool :=
  endsWord text && text.head? ≠ some ' '

mutual

/-- The inside of parentheses. `fuel` bounds the nesting of calls. -/
def readLevel : Nat → List Char → Option (Reading × List Char)
  | 0, _ => none
  | fuel + 1, text => do
    let (first, rest) ← readOperand fuel text
    let (later, rest) ← readLater fuel rest
    return (if later.isEmpty then first else .row first later, rest)

def readLater : Nat → List Char → Option (List (String × Reading) × List Char)
  | 0, _ => none
  | fuel + 1, text =>
    match sign? text with
    | none => some ([], text)
    | some (sign, rest) => do
      let (operand, rest) ← readOperand fuel rest
      let (later, rest) ← readLater fuel rest
      return ((sign, operand) :: later, rest)

def readOperand : Nat → List Char → Option (Reading × List Char)
  | 0, _ => none
  | fuel + 1, '(' :: text =>
    match readLevel fuel text with
    | some (inner, ')' :: rest) => some (inner, rest)
    | _ => none
  | fuel + 1, '-' :: text =>
    if joinsSign text then none
    else do
      let (operand, rest) ← readOperand fuel text
      return (.prefixed "-" operand, rest)
  | fuel + 1, '+' :: text =>
    if joinsSign text then none
    else do
      let (operand, rest) ← readOperand fuel text
      return (.prefixed "+" operand, rest)
  | fuel + 1, text =>
    match text.takeWhile wordChar, text.dropWhile wordChar with
    | ['n', 'o', 't'], ' ' :: rest => do
      let (operand, rest) ← readOperand fuel rest
      return (.prefixed "not " operand, rest)
    | word, '(' :: rest => do
      let (arguments, rest) ← readArguments fuel rest
      return (.called (String.ofList word) arguments, rest)
    | word, rest => do
      let leaf ← leaf? word
      return (leaf, rest)

def readArguments : Nat → List Char → Option (List Reading × List Char)
  | 0, _ => none
  | fuel + 1, text =>
    match readLevel fuel text with
    | some (first, ',' :: ' ' :: rest) => do
      let (later, rest) ← readArguments fuel rest
      return (first :: later, rest)
    | some (last, ')' :: rest) => some ([last], rest)
    | _ => none

end

def read? (text : String) : Option Reading :=
  match readLevel (2 * text.length + 1) text.toList with
  | some (reading, []) => some reading
  | _ => none

/-- A text that reads as an operand, whatever follows it. -/
def ReadsOperand (text : List Char) (reading : Reading) : Prop :=
  ∀ (fuel : Nat) (tail : List Char), endsWord tail → 2 * text.length ≤ fuel →
    readOperand fuel (text ++ tail) = some (reading, tail)

def ReadsLevel (text : List Char) (reading : Reading) : Prop :=
  ∀ (fuel : Nat) (tail : List Char), endsLevel tail → 2 * text.length + 1 ≤ fuel →
    readLevel fuel (text ++ tail) = some (reading, tail)

theorem sign?_of_endsLevel {tail : List Char} (ends : endsLevel tail) : sign? tail = none := by
  unfold endsLevel at ends
  unfold sign?
  split
  · simp at ends
  · rfl

theorem readLater_of_endsLevel {fuel : Nat} {tail : List Char} (ends : endsLevel tail)
    (fueled : 1 ≤ fuel) : readLater fuel tail = some ([], tail) := by
  obtain ⟨fuel, rfl⟩ := Nat.exists_eq_add_of_le' fueled
  simp only [readLater, sign?_of_endsLevel ends]

theorem sign?_append {sign : String} (known : sign ∈ signs) (rest : List Char) :
    sign? (' ' :: (sign.toList ++ ' ' :: rest)) = some (sign, rest) := by
  have noBlank : ∀ c ∈ sign.toList, decide (c ≠ ' ') = true := by
    rintro c member
    have := notMem_of_mem_signs sign known
    grind
  have dropped : (sign.toList ++ ' ' :: rest).dropWhile (· ≠ ' ') = ' ' :: rest := by
    rw [List.dropWhile_append_of_pos noBlank]
    simp
  have taken : (sign.toList ++ ' ' :: rest).takeWhile (· ≠ ' ') = sign.toList := by
    rw [List.takeWhile_append_of_pos noBlank]
    simp
  simp only [sign?, dropped, taken, String.ofList_toList, known, if_true]

theorem readOperand_not (fuel : Nat) (rest : List Char) :
    readOperand (fuel + 1) ('n' :: 'o' :: 't' :: ' ' :: rest) = do
      let (operand, rest) ← readOperand fuel rest
      return (.prefixed "not " operand, rest) :=
  rfl

namespace ReadsOperand

theorem nonempty {text : List Char} {reading : Reading} (reads : ReadsOperand text reading) :
    text ≠ [] := by
  rintro rfl
  cases reads 0 [] rfl (Nat.le_refl 0)

theorem level {text : List Char} {reading : Reading} (reads : ReadsOperand text reading) :
    ReadsLevel text reading := by
  intro fuel tail ends enough
  have := List.length_pos_iff.2 reads.nonempty
  obtain ⟨fuel, rfl⟩ := Nat.exists_eq_add_of_le' (show 1 ≤ fuel by omega)
  have endsHere : endsWord tail := by simp_all [endsLevel]
  rw [readLevel, reads fuel tail endsHere (by omega)]
  simp only [Option.bind_eq_bind, Option.bind_some, readLater_of_endsLevel ends (by omega : 1 ≤ fuel)]
  rfl

theorem row {first second : List Char} {reading reading' : Reading} {sign : String}
    (firsts : ReadsOperand first reading) (seconds : ReadsOperand second reading')
    (known : sign ∈ signs) :
    ReadsLevel (first ++ ' ' :: (sign.toList ++ ' ' :: second))
      (.row reading [(sign, reading')]) := by
  intro fuel tail ends enough
  simp only [List.length_append, List.length_cons] at enough
  -- One step for the level and one for the operator; the second operand gets what is left.
  obtain ⟨fuel, rfl⟩ := Nat.exists_eq_add_of_le' (show 2 ≤ fuel by omega)
  have endsHere : endsWord tail := by simp_all [endsLevel]
  have whole : first ++ ' ' :: (sign.toList ++ ' ' :: second) ++ tail =
      first ++ ' ' :: (sign.toList ++ ' ' :: (second ++ tail)) := by simp
  have later : readLater (fuel + 1) (' ' :: (sign.toList ++ ' ' :: (second ++ tail))) =
      some ([(sign, reading')], tail) := by
    rw [readLater, sign?_append known]
    simp only [seconds fuel tail endsHere (by omega), Option.bind_eq_bind, Option.bind_some,
      readLater_of_endsLevel ends (by omega : 1 ≤ fuel)]
    rfl
  rw [whole, readLevel, firsts (fuel + 1) _ rfl (by omega)]
  simp only [Option.bind_eq_bind, Option.bind_some, later]
  rfl

theorem prefixed {text : List Char} {reading : Reading} {sign : String}
    (reads : ReadsOperand text reading) (known : sign ∈ ["-", "+", "not "])
    (apart : joinsSign text = false) :
    ReadsOperand (sign.toList ++ text) (.prefixed sign reading) := by
  intro fuel tail ends enough
  have length : (sign.toList ++ text).length = sign.toList.length + text.length :=
    List.length_append
  have apart : joinsSign (text ++ tail) = false := by
    cases text with
    | nil => exact absurd rfl reads.nonempty
    | cons => exact apart
  simp only [List.mem_cons, List.not_mem_nil, or_false] at known
  have inner : ∀ fuel, 2 * text.length ≤ fuel →
      readOperand fuel (text ++ tail) = some (reading, tail) := fun fuel enough =>
    reads fuel tail ends enough
  rcases known with rfl | rfl | rfl
  · have whole : "-".toList ++ text ++ tail = '-' :: (text ++ tail) := rfl
    rw [length, show "-".toList.length = 1 from rfl] at enough
    obtain ⟨fuel, rfl⟩ := Nat.exists_eq_add_of_le' (show 1 ≤ fuel by omega)
    rw [whole, readOperand, apart, inner fuel (by omega)]
    rfl
  · have whole : "+".toList ++ text ++ tail = '+' :: (text ++ tail) := rfl
    rw [length, show "+".toList.length = 1 from rfl] at enough
    obtain ⟨fuel, rfl⟩ := Nat.exists_eq_add_of_le' (show 1 ≤ fuel by omega)
    rw [whole, readOperand, apart, inner fuel (by omega)]
    rfl
  · have whole : "not ".toList ++ text ++ tail = 'n' :: 'o' :: 't' :: ' ' :: (text ++ tail) := rfl
    rw [length, show "not ".toList.length = 4 from rfl] at enough
    obtain ⟨fuel, rfl⟩ := Nat.exists_eq_add_of_le' (show 1 ≤ fuel by omega)
    rw [whole, readOperand_not, inner fuel (by omega)]
    rfl

end ReadsOperand

private theorem span_word {word : List Char} (chars : ∀ c ∈ word, wordChar c) {rest : List Char}
    (ends : ∀ c, rest.head? = some c → wordChar c = false) :
    (word ++ rest).takeWhile wordChar = word ∧ (word ++ rest).dropWhile wordChar = rest := by
  rw [List.takeWhile_append_of_pos chars, List.dropWhile_append_of_pos chars]
  cases rest with
  | nil => simp
  | cons c rest => simp [ends c rfl]

theorem readOperand_callee {function : String} (callee : isCallee function) (fuel : Nat)
    (rest : List Char) :
    readOperand (fuel + 1) (function.toList ++ '(' :: rest) = do
      let (arguments, rest) ← readArguments fuel rest
      return (.called function arguments, rest) := by
  simp only [isCallee, Bool.and_eq_true, Bool.not_eq_true', List.isEmpty_eq_false_iff,
    List.all_eq_true] at callee
  obtain ⟨nonempty, chars⟩ := callee
  have ends : ∀ c, ('(' :: rest).head? = some c → wordChar c = false := by
    rintro c head
    cases head
    decide
  obtain ⟨taken, dropped⟩ := span_word chars ends
  cases word : function.toList with
  | nil => exact absurd word nonempty
  | cons c later =>
    have first : wordChar c := chars c (by simp [word])
    rw [word, List.cons_append] at taken dropped
    -- A word starts with no parenthesis and no sign, so only the last equation applies.
    rw [List.cons_append, readOperand]
    · rw [taken, dropped, ← word]
      split
      next blank => cases blank
      next same =>
        cases same
        rw [String.ofList_toList]
      next noCall _ => exact absurd rfl (noCall _)
    all_goals
      rintro _ same
      cases same
      cases first

/-- A word before anything else is a leaf, unless it is an operator. -/
theorem readOperand_leaf {word tail : List Char} {reading : Reading}
    (chars : ∀ c ∈ word, wordChar c) (leaf : leaf? word = some reading) (ends : endsWord tail)
    (fuel : Nat) : readOperand (fuel + 1) (word ++ tail) = some (reading, tail) := by
  have stops : ∀ c, tail.head? = some c → wordChar c = false ∧ c ≠ '(' := by
    intro c head
    cases tail with
    | nil => cases head
    | cons d tail =>
      cases head
      simpa [endsWord] using ends
  obtain ⟨taken, dropped⟩ := span_word chars fun c head => (stops c head).1
  cases word with
  | nil => cases leaf
  | cons c later =>
    have first : wordChar c := chars c (List.mem_cons_self ..)
    rw [List.cons_append] at taken dropped ⊢
    rw [readOperand]
    · rw [taken, dropped]
      split
      next isNot =>
        -- The operator `not` is a reserved word, so it is no leaf.
        rw [isNot] at leaf
        cases leaf
      next => exact absurd rfl (stops _ rfl).2
      next =>
        rw [leaf]
        rfl
    all_goals
      rintro _ same
      cases same
      cases first

namespace ReadsLevel

theorem parenthesized {text : List Char} {reading : Reading} (reads : ReadsLevel text reading) :
    ReadsOperand ('(' :: (text ++ [')'])) reading := by
  intro fuel tail ends enough
  simp only [List.length_append, List.length_cons, List.length_nil] at enough
  obtain ⟨fuel, rfl⟩ := Nat.exists_eq_add_of_le' (show 1 ≤ fuel by omega)
  have inner := reads fuel (')' :: tail) rfl (by omega)
  have whole : '(' :: (text ++ [')']) ++ tail = '(' :: (text ++ ')' :: tail) := by simp
  rw [whole, readOperand, inner]
  rfl

theorem argument {fuel : Nat} {text tail : List Char} {reading : Reading}
    (reads : ReadsLevel text reading) (enough : 2 * text.length + 2 ≤ fuel) :
    readArguments fuel (text ++ ')' :: tail) = some ([reading], tail) := by
  obtain ⟨fuel, rfl⟩ := Nat.exists_eq_add_of_le' (show 1 ≤ fuel by omega)
  rw [readArguments, reads fuel (')' :: tail) rfl (by omega)]
  rfl

theorem arguments {fuel : Nat} {first second tail : List Char} {reading reading' : Reading}
    (firsts : ReadsLevel first reading) (seconds : ReadsLevel second reading')
    (enough : 2 * (first.length + second.length) + 3 ≤ fuel) :
    readArguments fuel (first ++ ',' :: ' ' :: (second ++ ')' :: tail)) =
      some ([reading, reading'], tail) := by
  obtain ⟨fuel, rfl⟩ := Nat.exists_eq_add_of_le' (show 1 ≤ fuel by omega)
  rw [readArguments, firsts fuel (',' :: ' ' :: (second ++ ')' :: tail)) rfl (by omega)]
  simp only [argument seconds (by omega : 2 * second.length + 2 ≤ fuel)]
  rfl

theorem call {function : String} (callee : isCallee function) {text : List Char}
    {reading : Reading} (reads : ReadsLevel text reading) :
    ReadsOperand (function.toList ++ '(' :: (text ++ [')'])) (.called function [reading]) := by
  intro fuel tail ends enough
  simp only [List.length_append, List.length_cons, List.length_nil] at enough
  obtain ⟨fuel, rfl⟩ := Nat.exists_eq_add_of_le' (show 1 ≤ fuel by omega)
  have whole : function.toList ++ '(' :: (text ++ [')']) ++ tail =
      function.toList ++ '(' :: (text ++ ')' :: tail) := by simp
  have enough : 2 * text.length + 2 ≤ fuel := by omega
  rw [whole, readOperand_callee callee, reads.argument enough]
  rfl

theorem call₂ {function : String} (callee : isCallee function) {first second : List Char}
    {reading reading' : Reading} (firsts : ReadsLevel first reading)
    (seconds : ReadsLevel second reading') :
    ReadsOperand (function.toList ++ '(' :: (first ++ ',' :: ' ' :: (second ++ [')'])))
      (.called function [reading, reading']) := by
  intro fuel tail ends enough
  simp only [List.length_append, List.length_cons, List.length_nil] at enough
  obtain ⟨fuel, rfl⟩ := Nat.exists_eq_add_of_le' (show 1 ≤ fuel by omega)
  have whole : function.toList ++ '(' :: (first ++ ',' :: ' ' :: (second ++ [')'])) ++ tail =
      function.toList ++ '(' :: (first ++ ',' :: ' ' :: (second ++ ')' :: tail)) := by simp
  have enough : 2 * (first.length + second.length) + 3 ≤ fuel := by omega
  rw [whole, readOperand_callee callee, firsts.arguments seconds enough]
  rfl

end ReadsLevel

end Operator

namespace Reading

mutual

/-- Whether there is at most one operator between operands at each level. -/
def isSingle : Reading → Bool
  | .number _ | .variable _ => true
  | .prefixed _ operand => operand.isSingle
  | .row first later => first.isSingle && later.length ≤ 1 && laterSingle later
  | .called _ arguments => allSingle arguments

def laterSingle : List (String × Reading) → Bool
  | [] => true
  | (_, operand) :: later => operand.isSingle && laterSingle later

def allSingle : List Reading → Bool
  | [] => true
  | reading :: later => reading.isSingle && allSingle later

end

end Reading

end Legible
