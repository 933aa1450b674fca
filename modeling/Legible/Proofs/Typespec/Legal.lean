import Legible.Proofs.Expr.Whole
import Legible.Proofs.Typespec.Reads

/-!
Types as a compiler builds them, and when they are written without placeholders.

Every type of the language reads as a type that warns of nothing. All but one are also written in
full: the type of all binaries has the subtype of bit strings and none of their sizes, and a
placeholder is shown for it.
-/

set_option autoImplicit false

namespace Legible

namespace Term

inductive Constant : Term → Prop
  | integer {a : Term} {value : Number} : value.IsDecoded →
      Constant (Construct.integer.term a [.number value])
  | unaryOp {a operand : Term} {operator : String} : Whole operator → Constant operand →
      Constant (Construct.unaryOp.term a [.atom operator, operand])
  | binaryOp {a left right : Term} {operator : String} : Whole operator → Constant left →
      Constant right → Constant (Construct.binaryOp.term a [.atom operator, left, right])

def shaped : List String :=
  ["fun", "range", "tuple", "map", "union", "binary", "map_field_assoc", "map_field_exact"]

mutual

/-- Types of names that are free of the mark. The type of all binaries is one of them if the
proposition holds. -/
inductive LegalType (binaries : Prop) : Term → Prop
  | builtin {a : Term} {name : String} {arguments : List Term} : Whole name → name ∉ shaped →
      (∀ t ∈ arguments, LegalType binaries t) →
      LegalType binaries (Construct.type.term a [.atom name, .list arguments])
  | binary {a : Term} : binaries →
      LegalType binaries (Construct.type.term a [.atom "binary", .list []])
  | bits {a size unit : Term} : Constant size → Constant unit →
      LegalType binaries (Construct.type.term a [.atom "binary", .list [size, unit]])
  | range {a low high : Term} : Constant low → Constant high →
      LegalType binaries (Construct.type.term a [.atom "range", .list [low, high]])
  | anyTuple {a : Term} : LegalType binaries (Construct.type.term a [.atom "tuple", .atom "any"])
  | tuple {a : Term} {elements : List Term} : (∀ t ∈ elements, LegalType binaries t) →
      LegalType binaries (Construct.type.term a [.atom "tuple", .list elements])
  | anyMap {a : Term} : LegalType binaries (Construct.type.term a [.atom "map", .atom "any"])
  | map {a : Term} {fields : List Term} : (∀ t ∈ fields, LegalField binaries t) →
      LegalType binaries (Construct.type.term a [.atom "map", .list fields])
  | union {a : Term} {members : List Term} : members ≠ [] →
      (∀ t ∈ members, LegalType binaries t) →
      LegalType binaries (Construct.type.term a [.atom "union", .list members])
  | anyFunction {a : Term} : LegalType binaries (Construct.type.term a [.atom "fun", .list []])
  | function {a b result : Term} {parameters : List Term} :
      (∀ t ∈ parameters, LegalType binaries t) → LegalType binaries result →
      LegalType binaries (Construct.type.term a [.atom "fun",
        .list [Construct.type.term b [.atom "product", .list parameters], result]])
  | functionOfAny {a b result : Term} : LegalType binaries result →
      LegalType binaries (Construct.type.term a [.atom "fun",
        .list [Construct.typeOfAnything.term b [.atom "any"], result]])
  | user {a : Term} {name : String} {arguments : List Term} : Whole name →
      (∀ t ∈ arguments, LegalType binaries t) →
      LegalType binaries (Construct.userType.term a [.atom name, .list arguments])
  | remote {a b c : Term} {module name : String} {arguments : List Term} : Whole module →
      Whole name → (∀ t ∈ arguments, LegalType binaries t) →
      LegalType binaries (Construct.remoteType.term a
        [.list [Construct.atom.term b [.atom module], Construct.atom.term c [.atom name],
          .list arguments]])
  | annotated {a b type : Term} {name : String} : Whole name → LegalType binaries type →
      LegalType binaries (Construct.annotatedType.term a
        [.list [Construct.variable.term b [.atom name], type]])
  | variable {a : Term} {name : String} : Whole name →
      LegalType binaries (Construct.variable.term a [.atom name])
  | atom {a : Term} {name : String} : Whole name →
      LegalType binaries (Construct.atom.term a [.atom name])
  | constant {t : Term} : Constant t → LegalType binaries t

inductive LegalField (binaries : Prop) : Term → Prop
  | assoc {a key value : Term} : LegalType binaries key → LegalType binaries value →
      LegalField binaries (Construct.type.term a [.atom "map_field_assoc", .list [key, value]])
  | exact {a key value : Term} : LegalType binaries key → LegalType binaries value →
      LegalField binaries (Construct.type.term a [.atom "map_field_exact", .list [key, value]])

end

end Term

/-- A text that nothing is warned of for, and that is whole where the proposition holds. -/
structure Written (complete : Prop) (warnings : List Warning) (text : String) : Prop where
  warnings : warnings = []
  text : complete → Whole text

namespace Written

variable {complete : Prop} {warnings warnings' : List Warning} {text text' : String}

theorem of_whole (whole : Whole text) : Written complete [] text :=
  ⟨rfl, fun _ => whole⟩

theorem after (opening : String) (fixed : Whole.opens opening)
    (written : Written complete warnings text) : Written complete warnings (opening ++ text) :=
  ⟨written.warnings, fun all => (written.text all).after opening fixed⟩

theorem before (closing : String) (fixed : Whole.closes closing)
    (written : Written complete warnings text) : Written complete warnings (text ++ closing) :=
  ⟨written.warnings, fun all => (written.text all).before closing fixed⟩

theorem between (opening closing : String) (opens : Whole.opens opening)
    (closes : Whole.closes closing) (written : Written complete warnings text) :
    Written complete warnings (opening ++ text ++ closing) :=
  (written.after opening opens).before closing closes

theorem around (separator : String) (fixed : Whole.opens separator && Whole.closes separator)
    (first : Written complete warnings text) (second : Written complete warnings' text') :
    Written complete (warnings ++ warnings') (text ++ separator ++ text') :=
  ⟨by rw [first.warnings, second.warnings, List.append_nil],
    fun all => .around separator fixed (first.text all) (second.text all)⟩

theorem intercalate (separator : String) (fixed : Whole.opens separator && Whole.closes separator)
    {α : Type} {parts : List α} {warningsOf : α → List Warning} {textOf : α → String}
    (each : ∀ part ∈ parts, Written complete (warningsOf part) (textOf part)) :
    Written complete (parts.flatMap warningsOf) (separator.intercalate (parts.map textOf)) :=
  ⟨List.flatMap_eq_nil_iff.2 fun part member => (each part member).warnings,
    fun all => .intercalate separator fixed
      (List.forall_mem_map.2 fun part member => (each part member).text all)⟩

theorem writeUnary {operator : String} (whole : Whole operator)
    (written : Written complete warnings text) :
    Written complete warnings (Operator.writeUnary operator text) :=
  ⟨written.warnings, fun all => ((TextCongruence.whole {}).writeUnary operator
    ⟨rfl, Operator.whole_unaryWord whole⟩ ⟨rfl, written.text all⟩).2⟩

theorem writeBinary {operator : String} (whole : Whole operator)
    (first : Written complete warnings text) (second : Written complete warnings' text') :
    Written complete (warnings ++ warnings') (Operator.writeBinary operator text text') :=
  ⟨by rw [first.warnings, second.warnings, List.append_nil],
    fun all => ((TextCongruence.whole {}).writeBinary operator
      ⟨rfl, Operator.whole_binaryWord whole⟩ ⟨rfl, first.text all⟩ ⟨rfl, second.text all⟩).2⟩

end Written

namespace Typespec

def IsWritten (complete : Prop) (type : Typespec) : Prop :=
  Written complete type.warnings type.text

variable {complete : Prop}

theorem written_members (separator : String)
    (fixed : Whole.opens separator && Whole.closes separator) {types : List Typespec}
    (each : ∀ type ∈ types, type.IsWritten complete) :
    Written complete (warningsOf types) (separator.intercalate (texts types)) := by
  rw [warningsOf_eq_flatMap, texts_eq_map]
  exact .intercalate separator fixed each

theorem written_applied {name : String} {types : List Typespec} (whole : Whole name)
    (each : ∀ type ∈ types, type.IsWritten complete) :
    Written complete (warningsOf types) (applied name (texts types)) := by
  have opened := (Written.of_whole whole).around "(" (by decide)
    (written_members ", " (by decide) each)
  exact opened.before ")" (by decide)

theorem whole_builtinName {name : String} (whole : Whole name) : Whole (builtinName name) := by
  unfold builtinName
  split
  · decide
  · split
    · decide
    · exact whole

theorem isWritten_builtin {name : String} {types : List Typespec} (whole : Whole name)
    (each : ∀ type ∈ types, type.IsWritten complete) :
    (builtin name types).IsWritten complete :=
  written_applied (whole_builtinName whole) each

theorem isWritten_constant {t : Term} (constant : t.Constant) :
    (ofTerm t).IsWritten complete := by
  induction constant with
  | integer decoded => exact .of_whole (Spelling.unmarked_of_numeric decoded.all_literal)
  | unaryOp whole _ operand => exact operand.writeUnary whole
  | binaryOp whole _ _ left right => exact left.writeBinary whole right

theorem written_segment (start : String) (fixed : Whole.opens start) {size : Option Typespec}
    (each : ∀ type ∈ size, type.IsWritten complete) :
    segmentWarnings size = [] ∧ ∀ text ∈ segment start size, complete → Whole text := by
  cases size with
  | none => exact ⟨rfl, List.forall_mem_nil _⟩
  | some type =>
    have written := (each type rfl).after start fixed
    exact ⟨written.warnings, List.forall_mem_singleton.2 written.text⟩

theorem isWritten_bits {size unit : Option Typespec}
    (sizes : ∀ type ∈ size, type.IsWritten complete)
    (units : ∀ type ∈ unit, type.IsWritten complete) : (bits size unit).IsWritten complete := by
  have first := written_segment "_::" (by decide) sizes
  have second := written_segment "_::_*" (by decide) units
  refine ⟨List.append_eq_nil_iff.2 ⟨first.1, second.1⟩, fun all => ?_⟩
  have segments := List.forall_mem_append.2
    ⟨fun text member => first.2 text member all, fun text member => second.2 text member all⟩
  exact (Whole.intercalate ", " (by decide) segments).between "<<" ">>" (by decide) (by decide)

theorem isWritten_map {fields : List Field}
    (each : ∀ field ∈ fields, Written complete field.warnings field.text) :
    (map fields).IsWritten complete := by
  have inner := Written.intercalate ", " (by decide) each
  rw [← Field.warningsOf_eq_flatMap, ← Field.texts_eq_map] at inner
  exact inner.between "%\x7b" "\x7d" (by decide) (by decide)

theorem isWritten_arrow {parameters : Parameters} {result : Typespec}
    (first : Written complete parameters.warnings parameters.text)
    (second : result.IsWritten complete) :
    (function (.arrow parameters result)).IsWritten complete := by
  have opened : Written complete (parameters.warnings ++ result.warnings)
      ((if parameters.text.isEmpty then "(-> " else "(" ++ parameters.text ++ " -> ") ++
        result.text) := by
    split
    · -- Without parameters the arrow stands first.
      have alone := second.after "(-> " (by decide)
      exact ⟨List.append_eq_nil_iff.2 ⟨first.warnings, second.warnings⟩, alone.text⟩
    · exact (first.after "(" (by decide)).around " -> " (by decide) second
  exact opened.before ")" (by decide)

/-- Subtypes with names, of which some have a notation for one argument. -/
theorem isWritten_ofTerm_builtin {a : Term} {name : String} {arguments : List Term}
    (whole : Whole name) (plain : name ∉ Term.shaped)
    (each : ∀ type ∈ arguments.map ofTerm, type.IsWritten complete) :
    (ofTerm (Construct.type.term a [.atom name, .list arguments])).IsWritten complete := by
  by_cases special : name ∈ notated
  · -- These four take any arguments: what does not fit their notation is left out.
    have four : name = "product" ∨ name = "list" ∨ name = "nonempty_list" ∨ name = "nil" := by
      simp only [notated, Term.shaped, List.mem_cons, List.not_mem_nil, or_false] at special plain
      tauto
    rcases four with rfl | rfl | rfl | rfl
    · rw [ofTerm_product]
      exact written_members ", " (by decide) each
    · rw [ofTerm_list]
      split
      · rw [List.map_singleton, List.forall_mem_singleton] at each
        exact each.between "[" "]" (by decide) (by decide)
      · exact isWritten_builtin whole (List.forall_mem_nil _)
    · rw [ofTerm_nonemptyList]
      split
      · rw [List.map_singleton, List.forall_mem_singleton] at each
        exact each.between "[" ", ...]" (by decide) (by decide)
      · exact isWritten_builtin whole (List.forall_mem_nil _)
    · have brackets : Whole "[]" := by decide
      exact .of_whole brackets
  · rw [ofTerm_builtin special]
    exact isWritten_builtin whole each

mutual

theorem isWritten_ofTerm {binaries : Prop} {t : Term} (legal : t.LegalType binaries) :
    (ofTerm t).IsWritten ¬binaries := by
  cases legal with
  | builtin whole plain arguments =>
    have each := List.forall_mem_map.2 fun t member => isWritten_ofTerm (arguments t member)
    exact isWritten_ofTerm_builtin whole plain each
  | binary holds =>
    -- The text is a placeholder, but nothing is warned of.
    exact ⟨rfl, fun none => absurd holds none⟩
  | bits size unit =>
    -- A zero is left out, and any other size is a constant.
    have written : ∀ {t : Term} (zero : Bool), t.Constant →
        ∀ type ∈ if zero then none else some (ofTerm t), type.IsWritten ¬binaries := by
      intro t zero constant type member
      cases zero with
      | true => cases member
      | false =>
        cases member
        exact isWritten_constant constant
    exact isWritten_bits (written _ size) (written _ unit)
  | range low high =>
    exact (isWritten_constant low).around ".." (by decide) (isWritten_constant high)
  | anyTuple =>
    have whole : Whole "tuple" := by decide
    exact isWritten_builtin whole (List.forall_mem_nil _)
  | tuple elements =>
    have each := List.forall_mem_map.2 fun t member => isWritten_ofTerm (elements t member)
    rw [ofTerm_tuple]
    exact (written_members ", " (by decide) each).between "\x7b" "\x7d" (by decide) (by decide)
  | anyMap =>
    have whole : Whole "map" := by decide
    exact isWritten_builtin whole (List.forall_mem_nil _)
  | map fields =>
    have each := fun t member => written_ofTypespec (fields t member)
    rw [ofTerm_map]
    exact isWritten_map (List.forall_mem_map.2 each)
  | union _ members =>
    have each := List.forall_mem_map.2 fun t member => isWritten_ofTerm (members t member)
    rw [ofTerm_union]
    exact written_members " | " (by decide) each
  | anyFunction =>
    have whole : Whole "fun()" := by decide
    exact .of_whole whole
  | function parameters result =>
    have each := List.forall_mem_map.2 fun t member => isWritten_ofTerm (parameters t member)
    have results := isWritten_ofTerm result
    rw [ofTerm_function]
    exact isWritten_arrow (written_members ", " (by decide) each) results
  | functionOfAny result =>
    have dots : Whole Parameters.any.text := by decide
    have results := isWritten_ofTerm result
    exact isWritten_arrow (.of_whole dots) results
  | user whole arguments =>
    have each := List.forall_mem_map.2 fun t member => isWritten_ofTerm (arguments t member)
    rw [ofTerm_user]
    exact written_applied (Spelling.unmarked_ofFunction whole) each
  | remote modules names arguments =>
    have each := List.forall_mem_map.2 fun t member => isWritten_ofTerm (arguments t member)
    rw [ofTerm_remote]
    exact (Written.of_whole (Spelling.unmarked_ofAtom modules)).around "." (by decide)
      (written_applied (Spelling.unmarked_ofFunction names) each)
  | annotated whole type =>
    have types := isWritten_ofTerm type
    exact (Written.of_whole (Spelling.unmarked_ofVariable whole)).around " :: " (by decide) types
  | «variable» whole => exact .of_whole (Spelling.unmarked_ofVariable whole)
  | atom whole => exact .of_whole (Spelling.unmarked_ofAtom whole)
  | constant constant => exact isWritten_constant constant

theorem written_ofTypespec {binaries : Prop} {t : Term} (legal : t.LegalField binaries) :
    Written (¬binaries) (Field.ofTypespec (ofTerm t)).warnings
      (Field.ofTypespec (ofTerm t)).text := by
  cases legal with
  | assoc key value =>
    have keys := isWritten_ofTerm key
    have values := isWritten_ofTerm value
    rw [Field.ofTypespec_assoc]
    exact (keys.after "optional(" (by decide)).around ") => " (by decide) values
  | exact key value =>
    have keys := isWritten_ofTerm key
    have values := isWritten_ofTerm value
    rw [Field.ofTypespec_exact]
    exact (keys.after "required(" (by decide)).around ") => " (by decide) values

end

/-- A legal type warns of nothing, and no placeholder stands in its text if the type of all binaries
stands nowhere in it. -/
theorem render_legalType {binaries : Prop} {t : Term} (legal : t.LegalType binaries) :
    (ofTerm t).warnings = [] ∧ (¬binaries →
      ∀ what : Placeholder, ¬ what.text.toList <:+: (ofTerm t).text.toList) := by
  have written := isWritten_ofTerm legal
  exact ⟨written.warnings, fun none => Text.Unmarked.free (written.text none)⟩

/-- A function from lists of a range to a map. -/
theorem render_legalType_function :
    let one := Construct.integer.term (.list []) [.number (.integer 1)]
    let range := Construct.type.term (.list []) [.atom "range", .list [one, one]]
    let list := Construct.type.term (.list []) [.atom "list", .list [range]]
    let size := Construct.variable.term (.list []) [.atom "Size"]
    let field := Construct.type.term (.list []) [.atom "map_field_exact", .list [size, range]]
    let map := Construct.type.term (.list []) [.atom "map", .list [field]]
    let parameters := Construct.type.term (.list []) [.atom "product", .list [list]]
    let t := Construct.type.term (.list []) [.atom "fun", .list [parameters, map]]
    t.LegalType False ∧ ¬False ∧ (ofTerm t).warnings = [] ∧
      ∀ what : Placeholder, ¬ what.text.toList <:+: (ofTerm t).text.toList := by
  intro one range list size field map parameters t
  have legalOne : one.Constant := .integer ⟨"1".toList, _, rfl, rfl⟩
  have legalRange : range.LegalType False := .range legalOne legalOne
  have legalList : list.LegalType False :=
    .builtin (by decide) (by decide) (List.forall_mem_singleton.2 legalRange)
  have legalField : field.LegalField False := .exact (.variable (by decide)) legalRange
  have legalMap : map.LegalType False := .map (List.forall_mem_singleton.2 legalField)
  have legal : t.LegalType False := .function (List.forall_mem_singleton.2 legalList) legalMap
  have ⟨quiet, free⟩ := render_legalType legal
  exact ⟨legal, not_false, quiet, free not_false⟩

/-- The type of all binaries, whose text is a placeholder that nothing warns of. -/
theorem text_ofTerm_binary :
    let t := Construct.type.term (.list []) [.atom "binary", .list []]
    t.LegalType True ∧ (ofTerm t).warnings = [] ∧
      (ofTerm t).text = "unknown_type" :=
  ⟨.binary trivial, rfl, rfl⟩

end Typespec

end Legible
