import Legible.Proofs.Decimal.Characters
import Legible.Proofs.Operator.Tree

/-!
Operator texts read back as the trees that they were rendered from.

Every operand is a text that reads as itself whatever follows it. So at most one operator stands
between operands at each level, and no precedence is needed to tell trees apart.
-/

set_option autoImplicit false

namespace Legible

namespace Operator

theorem readsOperand_of_leaf {word : List Char} {reading : Reading}
    (chars : ∀ c ∈ word, wordChar c) (leaf : leaf? word = some reading) :
    ReadsOperand word reading := by
  intro fuel tail ends enough
  have : word ≠ [] := by
    rintro rfl
    cases leaf
  have := List.length_pos_iff.2 this
  obtain ⟨fuel, rfl⟩ := Nat.exists_eq_add_of_le' (show 1 ≤ fuel by omega)
  exact readOperand_leaf chars leaf ends fuel

private theorem wordChar_of_isDigit {c : Char} (digit : c.isDigit) : wordChar c := by
  simp [wordChar, Spelling.identifierChar, Char.isAlphanum, digit]

theorem wordChar_of_mem_digits {value : Nat} : ∀ c ∈ Decimal.digits value, wordChar c :=
  fun _ member => wordChar_of_isDigit (Decimal.isDigit_of_mem_digits member)

theorem leaf?_digits (value : Nat) : leaf? (Decimal.digits value) = some (.number value) := by
  have allDigits : ∀ c ∈ Decimal.digits value, c.isDigit :=
    fun _ => Decimal.isDigit_of_mem_digits
  have valued : Nat.ofDigitChars 10 (Decimal.digits value) 0 = value :=
    Nat.ofDigitChars_ten_toDigits
  cases digits : Decimal.digits value with
  | nil => exact absurd digits (Decimal.digits_ne_nil value)
  | cons first rest =>
    rw [digits] at allDigits valued
    rw [leaf?, if_pos (List.all_eq_true.2 allDigits), valued]

theorem readsOperand_digits (value : Nat) :
    ReadsOperand (Decimal.digits value) (.number value) :=
  readsOperand_of_leaf wordChar_of_mem_digits (leaf?_digits value)

section
variable {name : String} (spelled : Spelling.isVariable name)
include spelled

theorem wordChar_of_mem_ofVariable : ∀ c ∈ (Spelling.ofVariable name).toList, wordChar c := by
  obtain ⟨first, rest, written, opens, chars, -⟩ := Spelling.toList_ofVariable spelled
  rw [written]
  intro c member
  have : Spelling.identifierChar c := by
    rcases List.mem_cons.1 member with rfl | inRest
    · exact Spelling.identifierChar_of_opensVariable opens
    · exact List.all_eq_true.1 chars c inRest
  simp [wordChar, this]

theorem leaf?_ofVariable (free : Spelling.ofVariable name ∉ Spelling.reserved) :
    leaf? (Spelling.ofVariable name).toList = some (.variable name) := by
  obtain ⟨first, rest, written, opens, chars, told⟩ := Spelling.toList_ofVariable spelled
  have notReserved : String.ofList (first :: rest) ∉ Spelling.reserved := by
    rwa [← written, String.ofList_toList]
  have noDigits : ((first :: rest).all Char.isDigit) = false := by
    simp [Spelling.not_isDigit_of_opensVariable opens]
  rw [written, leaf?, noDigits]
  simp only [Bool.false_eq_true, if_false, opens, chars, notReserved, told]
  rfl

theorem readsOperand_variable (free : Spelling.ofVariable name ∉ Spelling.reserved) :
    ReadsOperand (Spelling.ofVariable name).toList (.variable name) :=
  readsOperand_of_leaf (wordChar_of_mem_ofVariable spelled) (leaf?_ofVariable spelled free)

end

end Operator

open Operator

theorem joinsSign_eq (text : String) : joinsSign text.toList = Expr.startsWithSign text := by
  rw [Bool.eq_iff_iff, Expr.startsWithSign_iff]
  simp [joinsSign]

theorem toList_parenthesized (text : String) :
    (parenthesized text).toList = '(' :: (text.toList ++ [')']) := by
  simp [parenthesized]

namespace OperatorTree

structure Readable (t : OperatorTree) : Prop where
  level : ReadsLevel t.text.toList t.reading
  operand : ReadsOperand (t.operand t.text).toList t.reading

namespace Readable

theorem of_operand {t : OperatorTree} (closed : t.isInfix = false)
    (reads : ReadsOperand t.text.toList t.reading) : t.Readable where
  level := reads.level
  operand := by simpa [OperatorTree.operand, closed] using reads

theorem of_level {t : OperatorTree} (infixed : t.isInfix)
    (reads : ReadsLevel t.text.toList t.reading) : t.Readable where
  level := reads
  operand := by simpa [OperatorTree.operand, infixed, toList_parenthesized] using reads.parenthesized

theorem prefixOperand {t : OperatorTree} (readable : t.Readable) :
    ReadsOperand (t.prefixOperand t.text).toList t.reading ∧
      joinsSign (t.prefixOperand t.text).toList = false := by
  unfold OperatorTree.prefixOperand
  split
  · rw [toList_parenthesized]
    exact ⟨readable.level.parenthesized, rfl⟩
  next bare =>
    refine ⟨readable.operand, ?_⟩
    simp only [Bool.or_eq_true, not_or, Bool.not_eq_true] at bare
    unfold OperatorTree.operand
    split
    · rw [toList_parenthesized]
      rfl
    · -- Only a text without a sign at its start goes without parentheses.
      rw [joinsSign_eq]
      exact bare.2

end Readable

theorem readable (t : OperatorTree) : t.Readable := by
  induction t with
  | integer a value =>
    refine .of_operand rfl ?_
    rw [text, String.toList_ofList]
    exact readsOperand_digits value
  | «variable» a name spelled free => exact .of_operand rfl (readsOperand_variable spelled free)
  | binary a operator known left right ihLeft ihRight =>
    -- Operands are closed by their own parentheses, so each stops where the sign or comma starts.
    rcases binary?_cases known with ⟨sign, isSign, found⟩ | ⟨function, callee, found⟩
    · have infixed : Operator.isInfix operator := by simp [Operator.isInfix, found]
      refine .of_level infixed ?_
      have row := ihLeft.operand.row ihRight.operand isSign
      rw [reading_infixed found]
      simpa [text, applyBinary, found] using row
    · have closed : Operator.isInfix operator = false := by simp [Operator.isInfix, found]
      refine .of_operand closed ?_
      have call := ReadsLevel.call₂ callee ihLeft.operand.level ihRight.operand.level
      rw [reading_call₂ found]
      simpa [text, applyBinary, found] using call
  | unary a operator known operand ih =>
    obtain ⟨inner, apart⟩ := ih.prefixOperand
    rcases unary?_cases known with ⟨sign, isSign, found⟩ | ⟨function, callee, found⟩
    · refine .of_operand rfl ?_
      rw [reading_prefixed found]
      simpa [text, applyUnary, found] using inner.prefixed isSign apart
    · refine .of_operand rfl ?_
      rw [reading_call found]
      simpa [text, applyUnary, found] using ReadsLevel.call callee inner.level

theorem read?_text (t : OperatorTree) : read? t.text = some t.reading := by
  have enough : 2 * t.text.toList.length + 1 ≤ 2 * t.text.length + 1 :=
    Nat.le_of_eq (congrArg (2 * · + 1) String.length_toList)
  have reads := t.readable.level _ [] rfl enough
  rw [List.append_nil] at reads
  rw [read?, reads]

theorem text_eq_iff {t u : OperatorTree} : t.text = u.text ↔ Same t u := by
  constructor
  · intro eq
    apply reading_eq_iff.1
    apply Option.some_inj.1
    rw [← read?_text, ← read?_text, eq]
  · exact fun same => same.text_eq.1

end OperatorTree

/-- Operator texts are uniquely readable: the text of a tree reads back as that tree, with at most
one operator between operands at each level, and only trees that are the same share a text. -/
theorem read?_text_render (layout : Layout) (position : Position) (scope : Scope)
    (t : OperatorTree) :
    let text := ((Expr.ofTerm t.term).render layout position (scope.withPinning false)).text
    read? text = some t.reading ∧ t.reading.isSingle ∧
      ∀ (u : OperatorTree) (position' : Position) (scope' : Scope),
        (t.reading = u.reading ↔ OperatorTree.Same t u) ∧
          (text = ((Expr.ofTerm u.term).render layout position' (scope'.withPinning false)).text ↔
            OperatorTree.Same t u) := by
  intro text
  have written : text = t.text := t.text_render layout position rfl
  refine ⟨?_, t.isSingle_reading, fun u position' scope' => ⟨OperatorTree.reading_eq_iff, ?_⟩⟩
  · rw [written]
    exact t.read?_text
  · rw [written, u.text_render layout position' rfl]
    exact OperatorTree.text_eq_iff

end Legible
