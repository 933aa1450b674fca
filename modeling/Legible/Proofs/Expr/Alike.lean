import Legible.Proofs.Expr.Congruence
import Legible.Proofs.Spelling.Variable
import Legible.Proofs.Text.Pins

/-!
Renderings of one expression in two scopes and positions.

Both texts are alike: the scope decides which variables are pinned and nothing else, since what is
asked about the text of a part has the same answer with and without a pin.
-/

set_option autoImplicit false

namespace Legible

open List (Forall₂)
open Text (Alike)

namespace Text.Alike

theorem after (before : String) {text text' : String} (alike : Alike text text') :
    Alike (before ++ text) (before ++ text') :=
  .append (.refl before) alike

theorem before (after : String) {text text' : String} (alike : Alike text text') :
    Alike (text ++ after) (text' ++ after) :=
  .append alike (.refl after)

theorem between (before after : String) {text text' : String} (alike : Alike text text') :
    Alike (before ++ text ++ after) (before ++ text' ++ after) :=
  (alike.after before).before after

theorem intercalate (separator : String) {texts texts' : List String}
    (alike : Forall₂ Alike texts texts') :
    Alike (separator.intercalate texts) (separator.intercalate texts') := by
  induction alike with
  | nil => exact .refl _
  | cons first rest ih =>
    cases rest with
    | nil => simpa using first
    | cons =>
      rw [String.intercalate_cons_cons, String.intercalate_cons_cons]
      exact (first.before separator).append ih

end Text.Alike

open Text.Alike

variable (layout : Layout)

theorem parenthesized_alike {text text' : String} (alike : Alike text text') :
    Alike (parenthesized text) (parenthesized text') :=
  alike.between "(" ")"

theorem arm_alike {head head' body body' : String} (heads : Alike head head')
    (bodies : Alike body body') : Alike (layout.arm head body) (layout.arm head' body') := by
  have arrows : Alike (if head.isEmpty then "->" else head ++ " ->")
      (if head'.isEmpty then "->" else head' ++ " ->") := by
    rw [heads.isEmpty_eq]
    split
    · exact .refl _
    · exact heads.before " ->"
  unfold Layout.arm
  rw [bodies.spansLines_eq]
  simp only
  split
  · exact (arrows.before "\n").append (bodies.indent layout.width)
  · exact (arrows.before " ").append bodies

theorem arms_alike {opening opening' : String} {arms arms' : List String}
    (openings : Alike opening opening') (alike : Forall₂ Alike arms arms') :
    Alike (layout.arms opening arms) (layout.arms opening' arms') := by
  have inner := (intercalate "\n" alike).indent layout.width
  exact ((openings.before "\n").append inner).before "\nend"

namespace Expr

theorem startsWithSign_eq {text text' : String} (alike : Alike text text') :
    startsWithSign text = startsWithSign text' := by
  obtain ⟨bare, unpins, unpins'⟩ := alike
  have minus := unpins.head?_eq_iff (c := '-') (by decide) (by decide)
  have minus' := unpins'.head?_eq_iff (c := '-') (by decide) (by decide)
  have plus := unpins.head?_eq_iff (c := '+') (by decide) (by decide)
  have plus' := unpins'.head?_eq_iff (c := '+') (by decide) (by decide)
  rw [Bool.eq_iff_iff, startsWithSign_iff, startsWithSign_iff, minus, minus', plus, plus']

theorem operand_alike (e : Expr) {text text' : String} (alike : Alike text text') :
    Alike (e.operand text) (e.operand text') := by
  unfold operand
  split
  · exact parenthesized_alike alike
  · exact alike

theorem prefixOperand_alike (e : Expr) {text text' : String} (alike : Alike text text') :
    Alike (e.prefixOperand text) (e.prefixOperand text') := by
  unfold prefixOperand
  rw [startsWithSign_eq alike]
  split
  · exact parenthesized_alike alike
  · exact operand_alike e alike

theorem closureText_alike {arms arms' : List String} (alike : Forall₂ Alike arms arms') :
    Alike (closureText layout arms) (closureText layout arms') := by
  -- Both runs have as many arms, so they take the same way of writing them.
  cases alike with
  | nil => exact .refl _
  | cons first rest =>
    cases rest with
    | nil =>
      simp only [closureText, first.spansLines_eq]
      split
      · exact arms_alike layout (.refl _) (.cons first .nil)
      · exact first.between "fn " " end"
    | cons second rest => exact arms_alike layout (.refl _) (.cons first (.cons second rest))

theorem receiveAfterText_alike {arms arms' : List String} {timeout timeout' after after' : String}
    (alike : Forall₂ Alike arms arms') (timeouts : Alike timeout timeout')
    (afters : Alike after after') :
    Alike (receiveAfterText layout arms timeout after)
      (receiveAfterText layout arms' timeout' after') := by
  have last := arms_alike layout (.refl "after") (.cons (arm_alike layout timeouts afters) .nil)
  cases alike with
  | nil => exact last.after _
  | cons first rest =>
    have received := (intercalate "\n" (.cons first rest)).indent layout.width
    exact ((received.before "\n").after _).append last

theorem blockText_alike (length : Nat) {text text' : String} (alike : Alike text text') :
    Alike (blockText layout length text) (blockText layout length text') := by
  unfold blockText
  split
  · exact alike
  · exact (alike.indent layout.width).between "(\n" "\n)"

theorem ofVariable_alike {name : String} (spelled : Spelling.isVariable name)
    (scope scope' : Scope) :
    Alike (Rendering.ofVariable name scope).text (Rendering.ofVariable name scope').text := by
  obtain ⟨first, rest, written, opens, -⟩ := Spelling.toList_ofVariable spelled
  -- Both texts come down to the bare variable.
  have unpins : ∀ scope : Scope, Text.Unpins (Rendering.ofVariable name scope).text.toList
      (Spelling.ofVariable name).toList := by
    intro scope
    rw [Rendering.text_ofVariable]
    split
    · rw [String.toList_append, written]
      exact .drop opens (.refl rest)
    · exact .refl _
  exact ⟨_, unpins scope, unpins scope'⟩

end Expr

def TextCongruence.alike (layout : Layout) : TextCongruence layout layout where
  Same := Alike
  SameArm := Alike
  keyword text _ := .refl text
  around separator _ _ _ _ _ before after := (before.before separator).append after
  after opening _ _ _ same := same.after opening
  before closing _ _ _ same := same.before closing
  prefixOperand := Expr.prefixOperand_alike
  blockText := Expr.blockText_alike layout
  sameArm same := same
  arm := arm_alike layout
  arms := arms_alike layout
  closureText := Expr.closureText_alike layout
  receiveAfterText := Expr.receiveAfterText_alike layout

namespace Expr

def AlwaysAlike (e : Expr) : Prop :=
  ∀ (position position' : Position) (scope scope' : Scope),
    Alike (e.render layout position scope).text (e.render layout position' scope').text

theorem alwaysAlike (e : Expr) (spelled : ∀ name, e.Mentions name → Spelling.isVariable name) :
    e.AlwaysAlike layout := by
  intro position position' scope scope'
  have every : e.Every (SelfRelated (.alike layout) .any) := by
    refine .of_mentions e (fun name mentions => ⟨by simp [words], rfl, ?_⟩) fun e noVariable =>
      ⟨fun word _ => .refl word, rfl, fun name eq => absurd eq (noVariable name)⟩
    rintro _ ⟨⟩ scope scope' -
    exact ⟨ofVariable_alike (spelled name mentions) scope scope', trivial,
      (warnings_ofVariable name scope).trans (warnings_ofVariable name scope').symm⟩
  have related : Related (.alike layout) .any (e.render layout position scope)
      (e.render layout position' scope') := e.congruent every trivial trivial
  exact related.text

end Expr

/-- A term that is no variable, or the variable of a name that a program can give it. -/
def Term.isSpelled : Term → Bool
  | .tuple [.atom tag, _, .atom name] => tag ≠ Construct.variable.tag || Spelling.isVariable name
  | _ => true

def Text.withoutCarets (text : String) : String :=
  String.ofList (text.toList.filter (· ≠ '^'))

/-- The scope and the position decide where carets stand and nothing else. -/
theorem withoutCarets_render_eq (layout : Layout) {t : Term}
    (spelled : ∀ u ∈ t.subterms, u.isSpelled) (position position' : Position)
    (scope scope' : Scope) :
    Text.withoutCarets ((Expr.ofTerm t).render layout position scope).text =
      Text.withoutCarets ((Expr.ofTerm t).render layout position' scope').text := by
  have names : ∀ name, (Expr.ofTerm t).Mentions name → Spelling.isVariable name := by
    intro name mentions
    obtain ⟨a, inside⟩ := Expr.mem_subterms_of_mentions t mentions
    simpa [Term.isSpelled] using spelled _ inside
  have alike := Expr.alwaysAlike layout (Expr.ofTerm t) names position position' scope scope'
  exact congrArg String.ofList alike.filter_eq

theorem withoutCarets_render_matching :
    let t := Construct.matching.term (.list [])
      [Construct.variable.term (.list []) [.atom "X"],
        Construct.variable.term (.list []) [.atom "_Rest2"]]
    let bound := Scope.ofNames (.ofList ["_Rest2", "x"])
    (∀ u ∈ t.subterms, u.isSpelled) ∧
      Text.withoutCarets ((Expr.ofTerm t).render {} .expression bound).text =
        Text.withoutCarets ((Expr.ofTerm t).render {} .pattern ∅).text := by
  intro t bound
  have spelled : ∀ u ∈ t.subterms, u.isSpelled := by decide
  exact ⟨spelled, withoutCarets_render_eq {} spelled .expression .pattern bound ∅⟩

end Legible
