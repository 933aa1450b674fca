import Mathlib.Data.List.Induction
import Legible.Proofs.Module.Reads
import Legible.Proofs.Module.Reflow

/-!
How a module is put together from its forms.

The assembly tells the first text by the empty body before it. That is right because no form has an
empty text: each content is either without text or starts with something fixed, unless it is a
function without clauses or a specification without signatures.
-/

set_option autoImplicit false

namespace Legible

/-- Forms that have no part of what they are made of: functions without clauses, and specifications
and callbacks without signatures. -/
inductive Term.Hollow : Term → Prop
  | function {a name arity : Term} : Hollow (Construct.function.term a [name, arity, .list []])
  | specification {a value : Term} {label : String} : label = "spec" ∨ label = "callback" →
      value.element? 1 = some (.list []) →
      Hollow (Construct.attribute.term a [.atom label, value])

theorem Term.not_hollow_function {a name arity clause : Term} {later : List Term} :
    ¬ Hollow (Construct.function.term a [name, arity, .list (clause :: later)]) := by
  intro hollow
  generalize same : Construct.function.term a [name, arity, .list (clause :: later)] = t at hollow
  cases hollow with
  | function => simp at same
  | specification => simp [Construct.tag] at same

theorem Term.not_hollow_attribute {a value : Term} {label : String}
    (noSpecification : ¬(label = "spec" ∨ label = "callback")) :
    ¬ Hollow (Construct.attribute.term a [.atom label, value]) := by
  intro hollow
  generalize same : Construct.attribute.term a [.atom label, value] = t at hollow
  cases hollow with
  | function => simp [Construct.tag] at same
  | specification known =>
    simp only [Term.tuple.injEq, List.cons.injEq, Term.atom.injEq] at same
    obtain ⟨-, -, rfl, -⟩ := same
    exact noSpecification known

theorem Text.intercalate_ne_empty {separator first : String} {later : List String}
    (nonempty : first ≠ "") : separator.intercalate (first :: later) ≠ "" := by
  cases later with
  | nil => simpa using nonempty
  | cons second later => simp [nonempty]

namespace FormContent

variable {layout : Layout} {facts : ModuleFacts} {line : Option Int64}

theorem renderDefinition_ne_empty (keyword name : String) (clause : Clause) :
    (renderDefinition layout keyword name clause).1 ≠ "" := by
  unfold renderDefinition
  split
  next parts _ => simp [definition]
  next => decide

theorem Reads.text_ne_empty {t : Term} {content : FormContent} (read : Reads t content)
    (filled : ¬ t.Hollow) {text : String}
    (rendered : (content.render layout facts line).text = some text) : text ≠ "" := by
  cases read with
  | @function a name arity clauses =>
    cases clauses with
    | nil => exact absurd .function filled
    | cons clause later =>
      obtain rfl := Option.some_inj.1 rendered
      exact Text.intercalate_ne_empty (renderDefinition_ne_empty _ _ _)
  | @specification a value label function signatures known _ listed =>
    cases signatures with
    | nil => exact absurd (.specification known listed) filled
    | cons signature later =>
      obtain rfl := Option.some_inj.1 rendered
      exact Text.intercalate_ne_empty (by simp)
  | functionHole | specificationHole | typeDeclaration | typeHole | behaviour | behaviourHole
  | nameless | unsupported =>
    obtain rfl := Option.some_inj.1 rendered
    simp [Placeholder.text]
  | silent | skipped | endOfFile => cases rendered

end FormContent

namespace Form

variable {layout : Layout} {facts : ModuleFacts}

theorem text_render_ne_empty {t : Term} (filled : ¬ t.Hollow) {text : String}
    (rendered : ((ofTerm t).render layout facts).text = some text) : text ≠ "" := by
  obtain ⟨inner, written, rfl⟩ := Option.map_eq_some_iff.1 rendered
  have nonempty : inner ≠ "" := (FormContent.reads t).text_ne_empty filled written
  unfold commented
  split
  · split
    · simp
    · exact nonempty
  · exact nonempty

/-- A form without text ends the file, is an attribute that says nothing, or is warned about. -/
theorem of_text_render_eq_none {t : Term}
    (silent : ((ofTerm t).render layout facts).text = none) :
    (∃ a, t = Construct.endOfFile.term a []) ∨
      ∃ a label value, t = Construct.attribute.term a [.atom label, value] ∧
        (label ∈ FormContent.silentAttributes ∨
          ((ofTerm t).render layout facts).warnings = [⟨.attribute label, t.line?⟩]) := by
  have written : ((FormContent.ofTerm t).render layout facts t.line?).text = none :=
    Option.map_eq_none_iff.1 silent
  have warned : ((ofTerm t).render layout facts).warnings =
    ((FormContent.ofTerm t).render layout facts t.line?).warnings := rfl
  rw [warned]
  have read := FormContent.reads t
  generalize FormContent.ofTerm t = content at read written
  cases read with
  | endOfFile => exact .inl ⟨_, rfl⟩
  | silent known => exact .inr ⟨_, _, _, rfl, .inl known⟩
  | skipped => exact .inr ⟨_, _, _, rfl, .inr rfl⟩
  | function | functionHole | specification | specificationHole | typeDeclaration | typeHole
  | behaviour | behaviourHole | nameless | unsupported => cases written

end Form

namespace ModuleRendering

theorem joinForms_append (separator : String) (texts : List String) (text : String) :
    joinForms separator (texts ++ [text]) = below separator (joinForms separator texts) text := by
  simp [joinForms, below]

/-- One separator stands between consecutive texts if none of them is empty. -/
theorem joinForms_eq_intercalate (separator : String) {texts : List String}
    (each : ∀ text ∈ texts, text ≠ "") :
    joinForms separator texts = separator.intercalate texts := by
  induction texts using List.reverseRecOn with
  | nil => rfl
  | append_singleton texts text ih =>
    rw [joinForms_append, ih fun t member => each t (List.mem_append_left _ member)]
    cases texts with
    | nil => simp [below]
    | cons first later =>
      have nonempty : separator.intercalate (first :: later) ≠ "" :=
        Text.intercalate_ne_empty (each first (by simp))
      rw [below, if_neg (by simpa using nonempty),
        String.intercalate_append_of_ne_nil (by simp) (by simp), String.intercalate_singleton]

theorem wrap_intercalate (layout : Layout) (name separator : String) {texts : List String}
    (each : ∀ text ∈ texts, text ≠ "") :
    wrap layout name (separator.intercalate texts) =
      "defmodule " ++ name ++ " do\n" ++
        (if texts = [] then "" else layout.indent (separator.intercalate texts) ++ "\n") ++
        "end\n" := by
  cases texts with
  | nil => simp [wrap, String.append_assoc]
  | cons first later =>
    have nonempty : separator.intercalate (first :: later) ≠ "" :=
      Text.intercalate_ne_empty (each first (by simp))
    rw [wrap, if_neg (by simpa using nonempty), if_neg (by simp)]
    simp [String.append_assoc]

/-- A module holds the texts of its forms in their order, with one separator between two of them,
and is warned of what its forms are warned of. -/
theorem ofForms_eq_join (layout : Layout) {forms : List Term}
    (filled : ∀ form ∈ forms, ¬ form.Hollow) :
    let facts := ModuleFacts.ofForms forms
    let render := fun form => (Form.ofTerm form).render layout facts
    let texts := forms.filterMap fun form => (render form).text
    let name := match facts.name with
      | some name => Spelling.ofAtom name
      | none => "unknown_module"
    let separator := if layout.blankLines then "\n\n" else "\n"
    (∀ text ∈ texts, text ≠ "") ∧
      ofForms layout forms =
        { text := "defmodule " ++ name ++ " do\n" ++
            (if texts = [] then "" else layout.indent (separator.intercalate texts) ++ "\n") ++
            "end\n"
          warnings := forms.flatMap fun form => (render form).warnings } ∧
      ∀ form ∈ forms, (render form).text = none →
        (∃ a, form = Construct.endOfFile.term a []) ∨
          ∃ a label value, form = Construct.attribute.term a [.atom label, value] ∧
            (label ∈ FormContent.silentAttributes ∨
              (render form).warnings = [⟨.attribute label, form.line?⟩]) := by
  intro facts render texts name separator
  have each : ∀ text ∈ texts, text ≠ "" := by
    intro text member
    obtain ⟨form, inForms, written⟩ := List.mem_filterMap.1 member
    exact Form.text_render_ne_empty (filled form inForms) written
  refine ⟨each, ?_, fun form _ silent => Form.of_text_render_eq_none silent⟩
  have gathered : (forms.map render).filterMap FormRendering.text = texts :=
    List.filterMap_map ..
  have warned : (forms.map render).flatMap FormRendering.warnings =
      forms.flatMap fun form => (render form).warnings := List.flatMap_map ..
  have written : ofForms layout forms =
    { text := wrap layout name
        (joinForms separator ((forms.map render).filterMap FormRendering.text))
      warnings := (forms.map render).flatMap FormRendering.warnings } := rfl
  rw [written, gathered, warned, joinForms_eq_intercalate separator each,
    wrap_intercalate layout name separator each]

/-- A function, a type and an attribute without text. -/
theorem ofForms_eq_join_type :
    let name := Construct.attribute.term (.list []) [.atom "module", .atom "m"]
    let clause := Construct.clause.term (.list []) [.list [], .list [], .list []]
    let function := Construct.function.term (.list [])
      [.atom "f", .number (.integer 0), .list [clause]]
    let author := Construct.attribute.term (.list []) [.atom "author", .atom "me"]
    let type := Construct.attribute.term (.list []) [.atom "type",
      .tuple [.atom "t", Construct.atom.term (.list []) [.atom "a"], .list []]]
    let forms := [name, function, author, type]
    (∀ form ∈ forms, ¬ form.Hollow) ∧
      ofForms {} forms =
        { text := "defmodule :m do\n  defp f() do\n\n  end\n\n  @type t() :: :a\nend\n"
          warnings := [⟨.attribute "author", none⟩] } ∧
      ((Form.ofTerm author).render {} (ModuleFacts.ofForms forms)).text = none ∧
      ((Form.ofTerm author).render {} (ModuleFacts.ofForms forms)).warnings =
        [⟨.attribute "author", none⟩] := by
  intro name clause function author type forms
  have filled : ∀ form ∈ forms, ¬ form.Hollow := by
    simp only [forms, List.forall_mem_cons, List.not_mem_nil, false_imp_iff, implies_true, and_true]
    exact ⟨Term.not_hollow_attribute (by decide), Term.not_hollow_function,
      Term.not_hollow_attribute (by decide), Term.not_hollow_attribute (by decide)⟩
  obtain ⟨-, joined, silent⟩ := ofForms_eq_join {} filled
  have textless : ((Form.ofTerm author).render {} (ModuleFacts.ofForms forms)).text = none := rfl
  refine ⟨filled, joined.trans (by decide), textless, ?_⟩
  rcases silent author (by simp [forms]) textless with
    ⟨_, same⟩ | ⟨_, label, _, same, said⟩
  · simp [author] at same
  · simp only [author, Term.tuple.injEq, List.cons.injEq, Term.atom.injEq] at same
    obtain ⟨-, -, rfl, -⟩ := same
    exact said.resolve_left (by decide)

end ModuleRendering

end Legible
