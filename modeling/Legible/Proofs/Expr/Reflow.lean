import Legible.Proofs.Expr.Congruence
import Legible.Proofs.Text.Margins

/-!
Renderings of one expression in two layouts.

Both runs see and declare the same names and warn of the same parts, and their texts differ in
nothing but margins.
-/

set_option autoImplicit false

namespace Legible

open List (Forall₂)
open Text (Reflowed SameLines indented toList_indent)

variable {layout layout' : Layout}

theorem Layout.toList_indent (layout : Layout) (text : String) :
    (layout.indent text).toList = indented layout.width text.toList :=
  Text.toList_indent layout.width text

theorem spansLines_eq {text text' : String} (same : SameLines text.toList text'.toList) :
    Text.spansLines text = Text.spansLines text' := by
  rw [Bool.eq_iff_iff, Text.spansLines_iff, Text.spansLines_iff, same.mem_newline_iff]

theorem sameLines_joined {arms arms' : List String}
    (same : Forall₂ (fun arm arm' => SameLines arm.toList arm'.toList) arms arms') :
    SameLines ("\n".intercalate arms).toList ("\n".intercalate arms').toList := by
  induction same with
  | nil => exact .refl _
  | cons first rest ih =>
    cases rest with
    | nil => simpa using first
    | cons =>
      rw [String.intercalate_cons_cons, String.intercalate_cons_cons]
      simpa using first.join ih

theorem sameLines_arm {head head' body body' : String} (heads : Reflowed head.toList head'.toList)
    (bodies : Reflowed body.toList body'.toList) :
    SameLines (layout.arm head body).toList (layout'.arm head' body').toList := by
  have arrows : Reflowed (if head.isEmpty then "->" else head ++ " ->").toList
      (if head'.isEmpty then "->" else head' ++ " ->").toList := by
    have empty : head.isEmpty = head'.isEmpty := by
      rw [Bool.eq_iff_iff, String.isEmpty_iff, String.isEmpty_iff, ← String.toList_eq_nil_iff,
        ← String.toList_eq_nil_iff, heads.sameLines.eq_nil_iff]
    rw [empty]
    split
    · exact .refl _
    · simpa using heads.append (.refl " ->".toList)
  unfold Layout.arm
  rw [spansLines_eq bodies.sameLines]
  simp only
  split
  · simpa [Layout.toList_indent] using bodies.under arrows layout.width layout'.width
  · simpa using ((arrows.append (.refl [' '])).append bodies).sameLines

theorem reflowed_arms {opening opening' : String} {arms arms' : List String}
    (openings : Reflowed opening.toList opening'.toList)
    (same : Forall₂ (fun arm arm' => SameLines arm.toList arm'.toList) arms arms') :
    Reflowed (layout.arms opening arms).toList (layout'.arms opening' arms').toList := by
  have block := (sameLines_joined same).block openings layout.width layout'.width 'e' ['n', 'd']
  simpa [Layout.arms, Layout.toList_indent] using block

namespace Expr

theorem reflowed_closureText {arms arms' : List String}
    (same : Forall₂ (fun arm arm' => SameLines arm.toList arm'.toList) arms arms') :
    Reflowed (closureText layout arms).toList (closureText layout' arms').toList := by
  cases same with
  | nil => exact reflowed_arms (.refl _) .nil
  | cons first rest =>
    cases rest with
    | nil =>
      simp only [closureText, spansLines_eq first]
      split
      next => exact reflowed_arms (.refl _) (.cons first .nil)
      next oneLine =>
        rw [Text.spansLines_iff] at oneLine
        rw [String.toList_inj.1 (first.symm.eq_of_oneLine oneLine)]
        exact .refl _
    | cons second rest => exact reflowed_arms (.refl _) (.cons first (.cons second rest))

theorem reflowed_receiveAfterText {arms arms' : List String}
    {timeout timeout' after after' : String}
    (same : Forall₂ (fun arm arm' => SameLines arm.toList arm'.toList) arms arms')
    (timeouts : Reflowed timeout.toList timeout'.toList)
    (afters : Reflowed after.toList after'.toList) :
    Reflowed (receiveAfterText layout arms timeout after).toList
      (receiveAfterText layout' arms' timeout' after').toList := by
  have last : Reflowed (layout.arms "" [layout.arm timeout after]).toList
      (layout'.arms "" [layout'.arm timeout' after']).toList :=
    reflowed_arms (.refl _) (.cons (sameLines_arm timeouts afters) .nil)
  cases same with
  | nil =>
    have whole := (Reflowed.refl "receive do\nafter".toList).append last
    simpa [receiveAfterText, Layout.arms] using whole
  | cons first rest =>
    have received := (sameLines_joined (.cons first rest)).block (.refl "receive do".toList)
      layout.width layout'.width 'a' "fter".toList
    simpa [receiveAfterText, Layout.arms, Layout.toList_indent] using received.append last

theorem reflowed_blockText (length : Nat) {text text' : String}
    (same : Reflowed text.toList text'.toList) :
    Reflowed (blockText layout length text).toList (blockText layout' length text').toList := by
  unfold blockText
  split
  · exact same
  · have block := same.sameLines.block (.refl ['(']) layout.width layout'.width ')' []
    simpa [Layout.toList_indent] using block

theorem reflowed_prefixOperand (e : Expr) {text text' : String}
    (same : Reflowed text.toList text'.toList) :
    Reflowed (e.prefixOperand text).toList (e.prefixOperand text').toList := by
  have signs : startsWithSign text = startsWithSign text' := by
    rw [Bool.eq_iff_iff, startsWithSign_iff, startsWithSign_iff, same.head?_eq]
  have grouped : Reflowed (parenthesized text).toList (parenthesized text').toList := by
    simpa [parenthesized] using ((Reflowed.refl ['(']).append same).append (.refl [')'])
  unfold prefixOperand operand
  rw [signs]
  split
  · exact grouped
  · split
    · exact grouped
    · exact same

end Expr

def TextCongruence.reflow (layout layout' : Layout) : TextCongruence layout layout' where
  Same text text' := Reflowed text.toList text'.toList
  SameArm arm arm' := SameLines arm.toList arm'.toList
  keyword _ _ := .refl _
  around separator _ _ _ _ _ before after := by
    simpa using (before.append (.refl separator.toList)).append after
  after opening _ _ _ same := by simpa using (Reflowed.refl opening.toList).append same
  before closing _ _ _ same := by simpa using same.append (.refl closing.toList)
  prefixOperand := Expr.reflowed_prefixOperand
  blockText := Expr.reflowed_blockText
  sameArm same := same.sameLines
  arm := sameLines_arm
  arms := reflowed_arms
  closureText := Expr.reflowed_closureText
  receiveAfterText := Expr.reflowed_receiveAfterText

theorem Expr.reflow (layout layout' : Layout) (e : Expr) :
    e.Congruent (.reflow layout layout') .equal := by
  refine e.congruent (Every.of_forall (fun e => ⟨fun _ _ => .refl _, rfl, ?_⟩) e)
  rintro name - scope - rfl
  exact ⟨.refl _, rfl, rfl⟩

end Legible
