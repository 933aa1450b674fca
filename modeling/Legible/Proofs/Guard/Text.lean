import Legible.Proofs.Guard.Reader
import Legible.Proofs.Operator.Readable
import Legible.Proofs.Spelling.Function

/-!
Texts that read as formulas.

An operand is read whatever follows it, and a level is read up to where it ends. Each way in which
texts are put together keeps the one or the other.
-/

set_option autoImplicit false

namespace Legible.Guard

theorem not_signChar {c : Char} (isWord : Operator.wordChar c) : signChar c = false := by
  refine Bool.eq_false_iff.2 fun isSign => ?_
  have listed : ['+', '-', '*', '/', '=', '!', '<', '>'].all fun d => !Operator.wordChar d := by
    decide
  simpa [isWord] using List.all_eq_true.1 listed c (List.contains_iff_mem.1 isSign)

namespace IsWord

theorem of_operatorWord {text : List Char} (nonempty : text ≠ [])
    (chars : ∀ c ∈ text, Operator.wordChar c) : IsWord text where
  opens := by
    cases text with
    | nil => exact absurd rfl nonempty
    | cons c rest => simp [not_signChar (chars c (by simp))]
  chars c member := by simp [wordChar, chars c member]

theorem of_isIdentifier {name : String} (bare : Spelling.isIdentifier name) :
    IsWord name.toList := by
  have bare := Spelling.isIdentifier_iff.1 bare
  have chars := bare.chars
  obtain ⟨first, rest, written, opens, -⟩ := bare
  constructor
  · have isWord : Operator.wordChar first := by
      simp [Operator.wordChar, Spelling.identifierChar_of_opensVariable opens]
    simp [written, not_signChar isWord]
  · intro c member
    rcases chars c member with identifier | rfl | rfl
    · simp [wordChar, Operator.wordChar, identifier]
    · rfl
    · rfl

end IsWord

theorem exists_binaryToken {sign : String} (known : sign ∈ Operator.signs) :
    ∃ token, token.binary? = some sign ∧ Whole [token] ∧ ∀ first last : List Char,
      tokens (first ++ ' ' :: (sign.toList ++ ' ' :: last)) = tokens first ++ token :: tokens last := by
  have noWhen : sign ≠ "when" := by
    rintro rfl
    revert known
    decide
  rcases tokens_sign sign known with alone | alone
  · refine ⟨.sign sign, by simp [Token.binary?, known], .token (fun _ => rfl) (by simp), ?_⟩
    intro first last
    rw [tokens_spaced, alone]
    rfl
  · refine ⟨.word sign, by simp [Token.binary?, known], .token (fun _ => rfl) (by simp [noWhen]), ?_⟩
    intro first last
    rw [tokens_spaced, alone]
    rfl

theorem unpinned_sign : ∀ sign ∈ Operator.signs, '^' ∉ sign.toList := by
  decide

/-- A text that reads as a row, up to where its level ends. -/
structure SpellsLevel (text : String) (row : Row) : Prop where
  spells : SpellsRow (tokens text.toList) row
  whole : Whole (tokens text.toList)
  unpinned : '^' ∉ text.toList

def SpellsFormula (text : String) (f : Formula) : Prop :=
  ∃ row, SpellsLevel text row ∧ row.group = some f

/-- A text that reads as a formula, whatever follows it. -/
structure SpellsOperand (text : String) (f : Formula) : Prop where
  reads : ReadsOperand (tokens text.toList) f
  whole : Whole (tokens text.toList)
  unpinned : '^' ∉ text.toList
  /-- Of the signs, only those before an operand start the text. -/
  opens : Expr.startsWithSign text ∨ text.toList.head?.all fun c => !signChar c

structure SpellsArguments (text : String) (arguments : List Formula) : Prop where
  reads : ReadsArguments (tokens text.toList) arguments
  whole : Whole (tokens text.toList)
  unpinned : '^' ∉ text.toList

namespace SpellsLevel

theorem append {text text' sign : String} {row row' : Row} (first : SpellsLevel text row)
    (known : sign ∈ Operator.signs) (second : SpellsLevel text' row') :
    SpellsLevel (text ++ " " ++ sign ++ " " ++ text') (row.append sign row') := by
  obtain ⟨token, isSign, alone, between⟩ := exists_binaryToken known
  have written : (text ++ " " ++ sign ++ " " ++ text').toList =
      text.toList ++ ' ' :: (sign.toList ++ ' ' :: text'.toList) := by simp
  refine ⟨?_, ?_, ?_⟩
  · rw [written, between]
    exact first.spells.append isSign second.spells
  · rw [written, between]
    exact first.whole.append (alone.append second.whole)
  · rw [written]
    simpa using ⟨first.unpinned, unpinned_sign sign known, second.unpinned⟩

end SpellsLevel

namespace SpellsFormula

variable {text : String} {f : Formula}

theorem parenthesized (formula : SpellsFormula text f) :
    SpellsOperand (parenthesized text) f := by
  obtain ⟨row, ⟨spells, whole, unpinned⟩, grouped⟩ := formula
  have tokenized : tokens (Legible.parenthesized text).toList =
      .opening :: (tokens text.toList ++ [.closing]) := by
    rw [toList_parenthesized, tokens_parenthesized]
  refine ⟨?_, ?_, ?_, .inr ?_⟩
  · rw [tokenized]
    exact spells.reads.parenthesized grouped
  · rw [tokenized]
    exact whole.parenthesized
  · rw [toList_parenthesized]
    simpa using unpinned
  · rw [toList_parenthesized]
    rfl

theorem argument (formula : SpellsFormula text f) : SpellsArguments text [f] := by
  obtain ⟨row, ⟨spells, whole, unpinned⟩, grouped⟩ := formula
  exact ⟨spells.reads.argument grouped, whole, unpinned⟩

theorem arguments (formula : SpellsFormula text f) {rest : String} {later : List Formula}
    (more : SpellsArguments rest later) : SpellsArguments (text ++ ", " ++ rest) (f :: later) := by
  obtain ⟨row, ⟨spells, whole, unpinned⟩, grouped⟩ := formula
  have written : (text ++ ", " ++ rest).toList = text.toList ++ ',' :: ' ' :: rest.toList := by
    simp
  have comma : Whole [.comma] := .token (fun _ => rfl) (by decide)
  refine ⟨?_, ?_, ?_⟩
  · rw [written, tokens_comma]
    exact spells.reads.arguments grouped more.reads
  · rw [written, tokens_comma]
    exact whole.append (comma.append more.whole)
  · rw [written]
    simpa using ⟨unpinned, more.unpinned⟩

theorem read? (formula : SpellsFormula text f) : read? text = some f := by
  obtain ⟨row, level, grouped⟩ := formula
  exact level.spells.reads.readTokens? grouped

end SpellsFormula

theorem SpellsArguments.of_forall₂ {text : String} {f : Formula} {texts : List String}
    {arguments : List Formula} (first : SpellsFormula text f)
    (later : List.Forall₂ SpellsFormula texts arguments) :
    SpellsArguments (", ".intercalate (text :: texts)) (f :: arguments) := by
  induction later generalizing text f with
  | nil => simpa using first.argument
  | cons next _ ih =>
    rw [String.intercalate_cons_cons]
    exact first.arguments (ih next)

namespace SpellsOperand

variable {text text' : String} {f g : Formula}

theorem level (operand : SpellsOperand text f) : SpellsLevel text { first := f, later := [] } where
  spells := .operand operand.reads
  whole := operand.whole
  unpinned := operand.unpinned

theorem formula (operand : SpellsOperand text f) : SpellsFormula text f :=
  ⟨_, operand.level, Row.group_operand f⟩

theorem infixed (first : SpellsOperand text f) {sign : String} (known : sign ∈ Operator.signs)
    (second : SpellsOperand text' g) :
    SpellsFormula (text ++ " " ++ sign ++ " " ++ text') (.infixed sign f g) :=
  ⟨_, first.level.append known second.level, Row.group_single f g sign known⟩

theorem of_word (word : IsWord text.toList) (leaf : leaf? text = some f) :
    SpellsOperand text f := by
  have tokenized : tokens text.toList = [.word text] := by
    rw [word.tokens_eq, String.ofList_toList]
  -- Neither of the two words that are operators is a leaf.
  have noOperator : text ≠ "not" := by
    rintro rfl
    cases leaf
  have noWhen : text ≠ "when" := by
    rintro rfl
    cases leaf
  refine ⟨?_, ?_, word.unpinned, ?_⟩
  · rw [tokenized]
    exact .leaf leaf (Token.unary?_word noOperator)
  · rw [tokenized]
    exact .token (fun _ => rfl) (by simp [noWhen])
  · right
    have opens := word.opens
    cases head : text.toList.head? with
    | none => rfl
    | some c => simpa [head] using opens

theorem signed (operand : SpellsOperand text f) {sign : Char} (isSign : sign = '-' ∨ sign = '+')
    (apart : Expr.startsWithSign text = false) :
    SpellsOperand (String.ofList [sign] ++ text) (.prefixed (String.ofList [sign]) f) := by
  -- The sign would be one token with any other sign after it.
  have starts : text.toList.head?.all (fun c => !signChar c) := by
    simpa [apart] using operand.opens
  have written : (String.ofList [sign] ++ text).toList = sign :: text.toList := by simp
  have alone : Whole [.sign (String.ofList [sign])] := .token (fun _ => rfl) (by simp)
  refine ⟨?_, ?_, ?_, .inl ?_⟩
  · rw [written, tokens_prefixed isSign starts]
    refine operand.reads.prefixed ?_
    rcases isSign with rfl | rfl <;> rfl
  · rw [written, tokens_prefixed isSign starts]
    exact alone.append operand.whole
  · rw [written]
    rcases isSign with rfl | rfl <;> simpa using operand.unpinned
  · rw [Expr.startsWithSign_iff, written]
    simpa using isSign

theorem not (operand : SpellsOperand text f) : SpellsOperand ("not " ++ text) (.prefixed "not " f) := by
  have written : ("not " ++ text).toList = "not".toList ++ ' ' :: text.toList := by simp
  have blank : separates ' ' := by decide
  have tokenized : tokens ("not " ++ text).toList = .word "not" :: tokens text.toList := by
    rw [written, tokens_append_cons blank]
    rfl
  have alone : Whole [.word "not"] := .token (fun _ => rfl) (by decide)
  refine ⟨?_, ?_, ?_, .inr ?_⟩
  · rw [tokenized]
    exact operand.reads.prefixed rfl
  · rw [tokenized]
    exact alone.append operand.whole
  · rw [written]
    simpa using operand.unpinned
  · rw [written]
    rfl

theorem call {function : String} (word : IsWord function.toList)
    (free : function ∉ Spelling.reserved) {texts : List String} {arguments : List Formula}
    (each : List.Forall₂ SpellsFormula texts arguments) :
    SpellsOperand (function ++ Legible.parenthesized (", ".intercalate texts))
      (.called function arguments) := by
  have written : (function ++ Legible.parenthesized (", ".intercalate texts)).toList =
      function.toList ++ '(' :: ((", ".intercalate texts).toList ++ [')']) := by
    rw [String.toList_append, toList_parenthesized]
  have tokenized := word.tokens_call (", ".intercalate texts).toList
  rw [← written, String.ofList_toList] at tokenized
  have called : Whole [.word function] :=
    .token (fun _ => rfl) (by simpa using ne_of_notMem_reserved free (by decide))
  have opens : (function ++ Legible.parenthesized (", ".intercalate texts)).toList.head?.all
      fun c => !signChar c := by
    have opens := word.opens
    rw [written]
    cases chars : function.toList with
    | nil => simp [chars] at opens
    | cons c rest => simpa [chars] using opens
  -- A call without arguments has a case of its own in the reader.
  cases each with
  | nil =>
    refine ⟨?_, ?_, ?_, .inr opens⟩
    · rw [tokenized]
      exact .call_nil free
    · rw [tokenized]
      exact called.append (.parenthesized .nil)
    · rw [written]
      simpa using word.unpinned
  | cons first later =>
    have inner := SpellsArguments.of_forall₂ first later
    refine ⟨?_, ?_, ?_, .inr opens⟩
    · rw [tokenized]
      exact .call free inner.reads
    · rw [tokenized]
      exact called.append inner.whole.parenthesized
    · have := word.unpinned
      have := inner.unpinned
      rw [written]
      grind

end SpellsOperand

end Legible.Guard
