import Legible.Proofs.Module.Reads
import Legible.Proofs.Typespec.Unbroken
import Legible.Module.Render

/-!
Specifications and callbacks, line by line.

A specification has one line for each of its signatures. Which of the three forms a signature takes
is told by its subtype alone, so each line is what the specification of that signature alone would
say.
-/

set_option autoImplicit false

namespace Legible

open Text (Unbroken unbroken_append)

/-- What a specification of the function of a given name says by a term: a signature, a signature
with bounds, or else a type. -/
inductive SignatureText (name : String) (t : Term) : String → Prop
  | function {signature : Signature} : t.subtype? = some "fun" →
      Typespec.ofTerm t = .function signature → SignatureText name t (signature.named name)
  | bounded {signature : BoundedSignature} : t.subtype? = some "bounded_fun" →
      BoundedSignature.ofTerm? t = some signature → SignatureText name t (signature.named name)
  | other : t.subtype? ≠ some "fun" → t.subtype? ≠ some "bounded_fun" →
      SignatureText name t (Typespec.ofTerm t).text

namespace Typespec

theorem subtype?_of_function {t : Term} {signature : Signature}
    (known : ofTerm t = .function signature) : t.subtype? = some "fun" := by
  have read := reads t
  rw [known] at read
  generalize same : Typespec.function signature = type at read
  cases read with
  | anyFunction | function | oddFunction => rfl
  | bare =>
    unfold ofBareSubtype at same
    split at same
    next => rfl
    all_goals cases same
  | _ => cases same

theorem exists_function_of_subtype? {t : Term} (known : t.subtype? = some "fun") :
    ∃ signature, ofTerm t = .function signature := by
  obtain ⟨a, x, rfl⟩ := Term.eq_term_of_subtype? known
  cases x with
  | list members =>
    match members with
    | [] | [_, _] | [_] | _ :: _ :: _ :: _ => exact ⟨_, rfl⟩
  | tuple | atom | number | string => exact ⟨_, rfl⟩

end Typespec

theorem BoundedSignature.isSome_ofTerm?_iff {t : Term} :
    (BoundedSignature.ofTerm? t).isSome ↔ t.subtype? = some "bounded_fun" := by
  unfold ofTerm?
  split
  next known =>
    refine iff_of_true ?_ known
    split <;> rfl
  next other => exact iff_of_false Bool.false_ne_true other

namespace Specification

theorem signatureText_ofTerm (name : String) (t : Term) :
    SignatureText name t ((Specification.ofTerm t).named name) := by
  unfold ofTerm
  simp only
  split
  next signature known =>
    have isFunction := Typespec.eq_function_of_signature? known
    exact .function (Typespec.subtype?_of_function isFunction) isFunction
  next signature _ known =>
    have isBounded := BoundedSignature.isSome_ofTerm?_iff.1 (Option.isSome_of_eq_some known)
    exact .bounded isBounded known
  next noSignature noBounds =>
    refine .other (fun isFunction => ?_) fun isBounded => ?_
    · obtain ⟨signature, known⟩ := Typespec.exists_function_of_subtype? isFunction
      rw [known] at noSignature
      cases noSignature
    · have known := BoundedSignature.isSome_ofTerm?_iff.2 isBounded
      rw [noBounds] at known
      cases known

def line (label function : String) (t : Term) : String :=
  "@" ++ label ++ " " ++ (Specification.ofTerm t).named (Spelling.ofFunction function)

theorem line_ne_empty (label function : String) (t : Term) : line label function t ≠ "" := by
  simp [line]

theorem unbroken_line {label function : String} {t : Term} (labelled : Unbroken label)
    (unbroken : t.IsUnbroken) : Unbroken (line label function t) := by
  have said := Specification.unbroken_named (Spelling.unbroken_ofFunction function) unbroken
  simp +decide only [line, unbroken_append, labelled, said, and_true]

end Specification

namespace FormContent

@[reducible] def specificationTerm (a : Term) (label : String) (key : Term)
    (signatures : List Term) : Term :=
  Construct.attribute.term a [.atom label, .tuple [key, .list signatures]]

/-- The key of a function in a specification, which may name its module first. -/
inductive Names (function : String) : Term → Prop
  | «local» {arity : Term} : Names function (.tuple [.atom function, arity])
  | remote {module arity : Term} : Names function (.tuple [module, .atom function, arity])

theorem Names.specifiedFunction?_eq {function : String} {key : Term} (names : Names function key) :
    specifiedFunction? key = some function := by
  cases names with
  | «local» => rfl
  | @remote module => cases module <;> rfl

variable {a key : Term} {label function : String} {signatures : List Term}

theorem ofTerm_specification (known : label = "spec" ∨ label = "callback")
    (names : Names function key) :
    ofTerm (specificationTerm a label key signatures) =
      .specification label function (signatures.map Specification.ofTerm) := by
  have read : ofTerm (specificationTerm a label key signatures) =
      ofSpecification label (.tuple [key, .list signatures]) := by
    rcases known with rfl | rfl <;> rfl
  have named : ((Term.tuple [key, .list signatures]).element? 0).bind specifiedFunction? =
      some function := names.specifiedFunction?_eq
  rw [read, ofSpecification, named]
  rfl

theorem text_render_specification (known : label = "spec" ∨ label = "callback")
    (names : Names function key) (layout : Layout) (facts : ModuleFacts) (line : Option Int64) :
    ((ofTerm (specificationTerm a label key signatures)).render layout facts line).text =
      some ("\n".intercalate (signatures.map (Specification.line label function))) := by
  rw [ofTerm_specification known names]
  simp only [render, List.map_map]
  rfl

/-- The lines of the signatures are those of the text. -/
theorem lines_specification (known : label = "spec" ∨ label = "callback")
    (unbroken : ∀ t ∈ signatures, t.IsUnbroken) :
    Text.lines ("\n".intercalate (signatures.map (Specification.line label function))).toList =
      signatures.map fun t => (Specification.line label function t).toList := by
  have labelled : Unbroken label := by
    rcases known with rfl | rfl <;> decide
  rw [Text.lines_intercalate, List.map_map]
  · rfl
  · exact List.forall_mem_map.2 fun t member =>
      Specification.unbroken_line labelled (unbroken t member)
  · intro empty
    obtain ⟨t, -, same⟩ := List.mem_map.1 empty
    exact Specification.line_ne_empty label function t same

end FormContent

namespace Form

def comments (layout : Layout) : Option Int64 → List String
  | some line => if layout.lineComments then ["# line " ++ Decimal.ofInt line.toInt] else []
  | none => []

theorem lines_commented (layout : Layout) (line : Option Int64) (text : String) :
    Text.lines (commented layout line text).toList =
      (comments layout line).map String.toList ++ Text.lines text.toList := by
  cases line with
  | none => rfl
  | some line =>
    have number : Unbroken (Decimal.ofInt line.toInt) :=
      Text.unbroken_of_numeric fun _ => Decimal.isNumeric_of_mem_ofInt
    have comment : Unbroken ("# line " ++ Decimal.ofInt line.toInt) :=
      unbroken_append.2 ⟨by decide, number⟩
    simp only [commented, comments]
    split
    · exact comment.lines_append_newline text
    · rfl

/-- A specification has one line for each signature, after the comment of its form. -/
theorem lines_render_specification {a key : Term} {label function : String}
    {signatures : List Term} (known : label = "spec" ∨ label = "callback")
    (names : FormContent.Names function key) (unbroken : ∀ t ∈ signatures, t.IsUnbroken)
    (layout : Layout) (facts : ModuleFacts) :
    let form := Form.ofTerm (FormContent.specificationTerm a label key signatures)
    let lines := signatures.map (Specification.line label function)
    (∃ text, (form.content.render layout facts form.line).text = some text ∧
      Text.lines text.toList = lines.map String.toList) ∧
    ∃ text, (form.render layout facts).text = some text ∧
      Text.lines text.toList = (comments layout form.line ++ lines).map String.toList := by
  intro form lines
  have rendered : (form.content.render layout facts form.line).text =
      some ("\n".intercalate lines) := by
    show ((FormContent.ofTerm (FormContent.specificationTerm a label key signatures)).render
      layout facts form.line).text = _
    exact FormContent.text_render_specification known names layout facts form.line
  have content : Text.lines ("\n".intercalate lines).toList = lines.map String.toList := by
    rw [FormContent.lines_specification known unbroken, List.map_map]
    rfl
  refine ⟨⟨_, rendered, content⟩, commented layout form.line ("\n".intercalate lines), ?_, ?_⟩
  · rw [Form.render, rendered]
    rfl
  · rw [lines_commented, content, List.map_append]

end Form

/-- A type has no break in its text unless a name in its term has one. So a specification has one
line for each signature, and each line is what is said of that signature alone. -/
theorem types_and_specifications_on_lines :
    (∀ t : Term, t.IsUnbroken → Unbroken (Typespec.ofTerm t).text) ∧
    ∀ (layout : Layout) (facts : ModuleFacts) (a key : Term) (label function : String)
      (signatures : List Term), label = "spec" ∨ label = "callback" →
      FormContent.Names function key → (∀ t ∈ signatures, t.IsUnbroken) →
      let form := Form.ofTerm (FormContent.specificationTerm a label key signatures)
      let lines := signatures.map (Specification.line label function)
      (∃ text, (form.content.render layout facts form.line).text = some text ∧
        Text.lines text.toList = lines.map String.toList) ∧
      (∃ text, (form.render layout facts).text = some text ∧
        Text.lines text.toList = (Form.comments layout form.line ++ lines).map String.toList) ∧
      ∀ t ∈ signatures,
        (∃ said, SignatureText (Spelling.ofFunction function) t said ∧
          Specification.line label function t = "@" ++ label ++ " " ++ said) ∧
        let alone := FormContent.ofTerm (FormContent.specificationTerm a label key [t])
        (alone.render layout facts form.line).text =
          some (Specification.line label function t) := by
  refine ⟨fun t => Typespec.unbroken_text_ofTerm, ?_⟩
  intro layout facts a key label function signatures known names unbroken form lines
  obtain ⟨content, whole⟩ := Form.lines_render_specification known names unbroken layout facts
  refine ⟨content, whole, fun t _ => ⟨⟨_, Specification.signatureText_ofTerm _ t, rfl⟩, ?_⟩⟩
  intro alone
  show ((FormContent.ofTerm (FormContent.specificationTerm a label key [t])).render
    layout facts form.line).text = _
  rw [FormContent.text_render_specification known names, List.map_singleton,
    String.intercalate_singleton]

/-- A callback of a function with a line feed in its name, which has a signature, a signature with
bounds and a type. -/
theorem callback_on_three_lines :
    let a := Term.number (.integer 7)
    let term := Construct.type.term a [.atom "term", .list []]
    let «variable» := Construct.variable.term a [.atom "X"]
    let function := fun parameter result =>
      Construct.type.term a [.atom "fun",
        .list [Construct.type.term a [.atom "product", .list [parameter]], result]]
    let bounded := Construct.type.term a [.atom "bounded_fun",
      .list [function «variable» «variable»,
        .list [Construct.type.term a [.atom "constraint",
          .list [Construct.atom.term a [.atom "is_subtype"], .list [«variable», term]]]]]]
    let signatures := [function term term, bounded, term]
    let key := Term.tuple [.atom "shapes", .atom "a\nb", .number (.integer 1)]
    (∀ t ∈ signatures, t.IsUnbroken) ∧ Unbroken (Typespec.ofTerm bounded).text ∧
    ∃ text,
      ((Form.ofTerm (FormContent.specificationTerm a "callback" key signatures)).render
        { lineComments := true } (ModuleFacts.ofForms [])).text = some text ∧
      Text.lines text.toList = ["# line 7",
        "@callback unquote(:\"a\\nb\")(term()) :: term()",
        "@callback unquote(:\"a\\nb\")(x) :: x when x: term()",
        "@callback term()"].map String.toList := by
  intro a term x function bounded signatures key
  have unbroken : ∀ t ∈ signatures, t.IsUnbroken := by decide
  obtain ⟨types, specifications⟩ := types_and_specifications_on_lines
  obtain ⟨-, ⟨text, rendered, lines⟩, -⟩ := specifications { lineComments := true }
    (ModuleFacts.ofForms []) a key "callback" "a\nb" signatures (.inr rfl) .remote unbroken
  refine ⟨unbroken, types bounded (unbroken bounded (by simp [signatures])), text, rendered, ?_⟩
  exact lines.trans (by decide)

end Legible
