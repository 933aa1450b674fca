import Legible.Proofs.Expr.Congruence
import Legible.Proofs.Spelling.Marks
import Legible.Proofs.Text.Whole

/-!
Expressions that are written without placeholders.

What is put around and between the parts of an expression joins them in no letter of the word that
placeholders start with, so a text is free of the word if the words of the expression are.
-/

set_option autoImplicit false

namespace Legible

open List (Forall₂)

namespace Whole

section
variable (layout : Layout)

theorem indent {text : String} (whole : Whole text) : Whole (layout.indent text) := by
  rw [Whole, Layout.indent, Text.toList_indent]
  exact whole.indented layout.width

theorem arm {head body : String} (heads : Whole head) (bodies : Whole body) :
    Whole (layout.arm head body) := by
  have arrow : Whole (if head.isEmpty then "->" else head ++ " ->") := by
    split
    · decide
    · exact heads.before " ->" (by decide)
  unfold Layout.arm
  simp only
  generalize (if head.isEmpty then "->" else head ++ " ->") = opening at arrow ⊢
  split
  · exact around "\n" (by decide) arrow (bodies.indent layout)
  · exact around " " (by decide) arrow bodies

theorem arms {opening : String} {arms : List String} (opens : Whole opening)
    (each : ∀ arm ∈ arms, Whole arm) : Whole (layout.arms opening arms) := by
  have inner := (intercalate "\n" (by decide) each).indent layout
  exact (around "\n" (by decide) opens inner).before "\nend" (by decide)

theorem closureText {arms : List String} (each : ∀ arm ∈ arms, Whole arm) :
    Whole (Expr.closureText layout arms) := by
  have opening : Whole "fn" := by decide
  unfold Expr.closureText
  split
  next arm =>
    split
    · exact opening.arms layout each
    · exact (each arm (List.mem_singleton_self _)).between "fn " " end" (by decide) (by decide)
  next => exact opening.arms layout each

theorem receiveAfterText {arms : List String} {timeout after : String}
    (each : ∀ arm ∈ arms, Whole arm) (timeouts : Whole timeout) (afters : Whole after) :
    Whole (Expr.receiveAfterText layout arms timeout after) := by
  have last : Whole (layout.arms "after" [layout.arm timeout after]) :=
    Whole.arms layout (by decide) (List.forall_mem_singleton.2 (timeouts.arm layout afters))
  unfold Expr.receiveAfterText
  split
  · exact last.after _ (by decide)
  · have inner := (intercalate "\n" (by decide) each).indent layout
    have received := inner.after "receive do\n" (by decide)
    simpa [String.append_assoc] using around "\n" (by decide) received last

theorem blockText (length : Nat) {text : String} (whole : Whole text) :
    Whole (Expr.blockText layout length text) := by
  unfold Expr.blockText
  split
  · exact whole
  · exact (whole.indent layout).between "(\n" "\n)" (by decide) (by decide)

theorem prefixOperand (e : Expr) {text : String} (whole : Whole text) :
    Whole (e.prefixOperand text) := by
  have grouped : Whole (parenthesized text) := whole.between "(" ")" (by decide) (by decide)
  unfold Expr.prefixOperand Expr.operand
  split
  · exact grouped
  · split
    · exact grouped
    · exact whole

end

private theorem eq_and_each {texts texts' : List String}
    (same : Forall₂ (fun text text' => text = text' ∧ Whole text) texts texts') :
    texts = texts' ∧ ∀ text ∈ texts, Whole text := by
  induction same with
  | nil => simp
  | cons first _ ih =>
    obtain ⟨rfl, whole⟩ := first
    obtain ⟨rfl, each⟩ := ih
    exact ⟨rfl, List.forall_mem_cons.2 ⟨whole, each⟩⟩

end Whole

/-- Texts without placeholders, in a single run. -/
def TextCongruence.whole (layout : Layout) : TextCongruence layout layout where
  Same text text' := text = text' ∧ Whole text
  SameArm arm arm' := arm = arm' ∧ Whole arm
  keyword text member := ⟨rfl, by
    have all : ∀ text ∈ Expr.keywords, Whole text := by decide
    exact all text member⟩
  around separator member := by
    have all : ∀ text ∈ Expr.separators, Whole.opens text && Whole.closes text := by decide
    rintro _ _ _ _ ⟨rfl, before⟩ ⟨rfl, after⟩
    exact ⟨rfl, .around separator (all separator member) before after⟩
  after opening member := by
    have all : ∀ text ∈ Expr.openings, Whole.opens text := by decide
    rintro _ _ ⟨rfl, whole⟩
    exact ⟨rfl, whole.after opening (all opening member)⟩
  before closing member := by
    have all : ∀ text ∈ Expr.closings, Whole.closes text := by decide
    rintro _ _ ⟨rfl, whole⟩
    exact ⟨rfl, whole.before closing (all closing member)⟩
  prefixOperand e := by
    rintro _ _ ⟨rfl, whole⟩
    exact ⟨rfl, whole.prefixOperand e⟩
  blockText length := by
    rintro _ _ ⟨rfl, whole⟩
    exact ⟨rfl, whole.blockText layout length⟩
  sameArm same := same
  arm := by
    rintro _ _ _ _ ⟨rfl, heads⟩ ⟨rfl, bodies⟩
    exact ⟨rfl, heads.arm layout bodies⟩
  arms := by
    rintro _ _ _ _ ⟨rfl, opening⟩ arms
    obtain ⟨rfl, each⟩ := Whole.eq_and_each arms
    exact ⟨rfl, opening.arms layout each⟩
  closureText := by
    intro _ _ arms
    obtain ⟨rfl, each⟩ := Whole.eq_and_each arms
    exact ⟨rfl, .closureText layout each⟩
  receiveAfterText := by
    rintro _ _ _ _ _ _ arms ⟨rfl, timeout⟩ ⟨rfl, after⟩
    obtain ⟨rfl, each⟩ := Whole.eq_and_each arms
    exact ⟨rfl, .receiveAfterText layout each timeout after⟩

def ViewCongruence.quiet : ViewCongruence :=
  { ViewCongruence.equal with
    SameWarnings := fun warnings warnings' => warnings = [] ∧ warnings' = []
    none := ⟨rfl, rfl⟩
    append := by
      rintro _ _ _ _ ⟨rfl, rfl⟩ ⟨rfl, rfl⟩
      exact ⟨rfl, rfl⟩ }

namespace Operator

def word : Operator → String
  | .infixed word | .prefixed word | .called word => word

theorem whole_word_of_binary? {name : String} {operator : Operator}
    (found : binary? name = some operator) : Whole operator.word := by
  have all : ∀ entry ∈ binaryTable, Whole entry.2.word := by decide
  exact all _ (mem_of_lookup found)

theorem whole_word_of_unary? {name : String} {operator : Operator}
    (found : unary? name = some operator) : Whole operator.word := by
  have all : ∀ entry ∈ unaryTable, Whole entry.2.word := by decide
  exact all _ (mem_of_lookup found)

theorem whole_asFunction {name : String} (whole : Whole name) : Whole (asFunction name) :=
  whole.between ":erlang.\"" "\"" (by decide) (by decide)

theorem whole_binaryWord {name : String} (whole : Whole name) : Whole (binaryWord name) := by
  simp only [binaryWord]
  split
  next found => exact whole_word_of_binary? found
  next found => exact whole_word_of_binary? found
  next => exact whole_asFunction whole
  next => exact whole_asFunction whole

theorem whole_unaryWord {name : String} (whole : Whole name) : Whole (unaryWord name) := by
  simp only [unaryWord]
  split
  next found => exact whole_word_of_unary? found
  next found => exact whole_word_of_unary? found
  next => exact whole_asFunction whole
  next => exact whole_asFunction whole

end Operator

namespace Expr

/-- An expression that is written with no placeholder and warns of nothing, its children apart. -/
structure IsWhole (e : Expr) : Prop where
  words : ∀ word ∈ e.words, Whole word
  complaints : e.complaints = []
  named : ∀ name, e = .variable name → Whole name

theorem whole_ofVariable {name : String} (whole : Whole name) (scope : Scope) :
    Whole (Rendering.ofVariable name scope).text := by
  have bare : Whole (Spelling.ofVariable name) := Spelling.unmarked_ofVariable whole
  rw [Rendering.text_ofVariable]
  split
  · exact bare.after "^" (by decide)
  · exact bare

theorem IsWhole.selfRelated (layout : Layout) {e : Expr} (whole : e.IsWhole) :
    e.SelfRelated (.whole layout) .quiet where
  words word member := ⟨rfl, whole.words word member⟩
  complaints := ⟨whole.complaints, whole.complaints⟩
  named name isVariable := by
    rintro scope _ rfl
    exact ⟨⟨rfl, whole_ofVariable (whole.named name isVariable) scope⟩, rfl,
      warnings_ofVariable name scope, warnings_ofVariable name scope⟩

/-- What consists of whole expressions is written without placeholders, and warns of nothing. -/
theorem whole_of_every {e : Expr} (every : e.Every IsWhole) (layout : Layout) (position : Position)
    (scope : Scope) :
    let rendering := e.render layout position scope
    rendering.warnings = [] ∧ Whole rendering.text := by
  have related : Related (.whole layout) .quiet (e.render layout position scope)
      (e.render layout position scope) :=
    e.congruent (every.mono fun _ whole => whole.selfRelated layout) rfl rfl
  exact ⟨related.warnings.1, related.text.2⟩

end Expr

end Legible
