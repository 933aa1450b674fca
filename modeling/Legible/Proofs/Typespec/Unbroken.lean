import Legible.Proofs.Expr.Whole
import Legible.Proofs.Spelling.Unbroken
import Legible.Proofs.Typespec.Reads

/-!
Types that stay on their line.

A type is written on one line if that is so of all names in its term, wherever they stand. The same
holds of its signature under the name of a function, and of the bounds of one.
-/

set_option autoImplicit false

namespace Legible

open Text (Unbroken unbroken_append unbroken_intercalate)

namespace Term

/-- Whether an atom, or a number that is no value, stays on its line. -/
def staysOnLine : Term → Bool
  | .atom name => decide (Unbroken name)
  | .number (.beyond spelling) => decide (Unbroken spelling)
  | _ => true

def IsUnbroken (t : Term) : Prop :=
  ∀ u ∈ t.subterms, u.staysOnLine

instance (t : Term) : Decidable t.IsUnbroken :=
  List.decidableBAll _ t.subterms

namespace IsUnbroken

variable {t u : Term} (unbroken : t.IsUnbroken)
include unbroken

theorem of_mem (member : u ∈ t.subterms) : u.IsUnbroken :=
  fun v deeper => unbroken v (mem_subterms_trans deeper member)

theorem inside (inside : u.Inside t) : u.IsUnbroken :=
  unbroken.of_mem inside.mem_subterms

theorem name {name : String} (inside : (Term.atom name).Inside t) : Unbroken name := by
  simpa [staysOnLine] using unbroken _ inside.mem_subterms

theorem atom? (inside : u.Inside t) : ∀ name, u.atom? = some name → Unbroken name := by
  intro name isAtom
  cases u with
  | atom => exact unbroken.name (Option.some.inj isAtom ▸ inside)
  | tuple | list | number | string => cases isAtom

theorem literal {value : Number} (inside : (Term.number value).Inside t) :
    Unbroken value.literal := by
  refine Number.unbroken_literal ?_
  rintro spelling rfl
  simpa [staysOnLine] using unbroken _ inside.mem_subterms

end IsUnbroken

end Term

namespace Operator

theorem unbroken_word_of_binary? {name : String} {operator : Operator}
    (found : binary? name = some operator) : Unbroken operator.word := by
  have all : ∀ entry ∈ binaryTable, Unbroken entry.2.word := by decide
  exact all _ (mem_of_lookup found)

theorem unbroken_word_of_unary? {name : String} {operator : Operator}
    (found : unary? name = some operator) : Unbroken operator.word := by
  have all : ∀ entry ∈ unaryTable, Unbroken entry.2.word := by decide
  exact all _ (mem_of_lookup found)

theorem unbroken_asFunction {name : String} (unbroken : Unbroken name) :
    Unbroken (asFunction name) := by
  simp +decide [asFunction, unbroken]

variable {operator : Option String} (named : ∀ name, operator = some name → Unbroken name)
include named

theorem unbroken_writeUnary {text : String} (unbroken : Unbroken text) :
    Unbroken (writeUnary operator text) := by
  cases operator with
  | none => simp +decide [writeUnary, unbroken]
  | some name =>
    have function := unbroken_asFunction (named name rfl)
    simp only [writeUnary, applyUnary]
    split
    next sign found =>
      have word : Unbroken sign := unbroken_word_of_unary? found
      exact unbroken_append.2 ⟨word, unbroken⟩
    next called found =>
      have word : Unbroken called := unbroken_word_of_unary? found
      simp +decide [word, unbroken]
    next => simp +decide [function, unbroken]
    next => simp +decide [function, unbroken]

theorem unbroken_writeBinary {left right : String} (first : Unbroken left)
    (second : Unbroken right) : Unbroken (writeBinary operator left right) := by
  cases operator with
  | none => simp +decide [writeBinary, first, second]
  | some name =>
    have function := unbroken_asFunction (named name rfl)
    simp only [writeBinary, applyBinary]
    split
    next sign found =>
      have word : Unbroken sign := unbroken_word_of_binary? found
      simp +decide [word, first, second]
    next called found =>
      have word : Unbroken called := unbroken_word_of_binary? found
      simp +decide [word, first, second]
    next => simp +decide [function, first, second]
    next => simp +decide [function, first, second]

end Operator

namespace Typespec

theorem unbroken_applied {name : String} {arguments : List String} (named : Unbroken name)
    (each : ∀ text ∈ arguments, Unbroken text) : Unbroken (applied name arguments) := by
  have inner := unbroken_intercalate ", " (by decide) each
  simp +decide [applied, named, inner]

theorem unbroken_builtinName {name : String} (named : Unbroken name) :
    Unbroken (builtinName name) := by
  unfold builtinName
  split
  · decide
  · split
    · decide
    · exact named

end Typespec

theorem Parameters.unbroken_text_ofTerm {t : Term} {read : Typespec}
    (unbroken : Unbroken read.text) : Unbroken (Parameters.ofTerm t read).text := by
  unfold Parameters.ofTerm
  split
  · decide
  · split
    · split
      · exact unbroken
      · decide
    · exact unbroken

namespace Signature

variable {parameters : Parameters} {result : Typespec}

theorem unbroken_text_arrow (first : Unbroken parameters.text) (second : Unbroken result.text) :
    Unbroken (arrow parameters result).text := by
  simp only [text]
  split
  · simp +decide [second]
  · simp +decide [first, second]

theorem unbroken_named {signature : Signature} {name : String} (named : Unbroken name)
    (unbroken : Unbroken signature.text) : Unbroken (signature.named name) := by
  cases signature with
  | any | malformed => exact Placeholder.unbroken_text .parameterReturn
  | arrow parameters result =>
    simp only [text, unbroken_append] at unbroken
    have first : Unbroken parameters.text := by
      by_cases bare : parameters.text.isEmpty
      · rw [String.isEmpty_iff.1 bare]
        decide
      · simpa +decide [bare] using unbroken.1.1
    simp +decide [Signature.named, named, first, unbroken.1.2]

end Signature

/-- The arguments of a name that is applied stand in its text. -/
theorem Typespec.unbroken_of_applied {name : String} {first second : Typespec}
    (unbroken : Unbroken (applied name [first.text, second.text])) :
    Unbroken first.text ∧ Unbroken second.text := by
  rw [applied, String.intercalate_cons_cons, String.intercalate_singleton] at unbroken
  simp only [unbroken_append] at unbroken
  exact ⟨unbroken.1.2.1.1, unbroken.1.2.2⟩

/-- A member of a map is written with parts of the type that it is read from. -/
theorem Field.unbroken_text_ofTypespec {type : Typespec} (unbroken : Unbroken type.text) :
    Unbroken (Field.ofTypespec type).text := by
  unfold Field.ofTypespec
  split
  next name arguments =>
    split
    next isAssoc =>
      split
      next key value =>
        have parts := Typespec.unbroken_of_applied unbroken
        simp +decide [Field.text, parts]
      next => decide
    next =>
      split
      next isExact =>
        split
        next key value =>
          have parts := Typespec.unbroken_of_applied unbroken
          simp +decide [Field.text, parts]
        next => decide
      next => exact unbroken
  next => exact unbroken

namespace Typespec

variable {t : Term}

theorem unbroken_text_ofBareSubtype {subtype : String} (named : Unbroken subtype) :
    Unbroken (ofBareSubtype subtype).text := by
  unfold ofBareSubtype
  split
  · decide
  · decide
  · decide
  · decide
  · decide
  · decide
  · exact unbroken_applied (unbroken_builtinName named) (List.forall_mem_nil _)

theorem unbroken_segment (start : String) (fixed : Unbroken start) {size : Option Typespec}
    (sized : ∀ type, size = some type → Unbroken type.text) :
    ∀ text ∈ segment start size, Unbroken text := by
  cases size with
  | none => exact List.forall_mem_nil _
  | some type => exact List.forall_mem_singleton.2 (unbroken_append.2 ⟨fixed, sized type rfl⟩)

theorem unbroken_text_ofTerm (unbroken : t.IsUnbroken) : Unbroken (ofTerm t).text := by
  induction t using Term.inside_induction with
  | step t ih =>
    -- A part stands inside the term, so its names are among those of the term.
    have part : ∀ u, u.Inside t → Unbroken (ofTerm u).text :=
      fun u inside => ih u inside (unbroken.inside inside)
    have each : ∀ {members : List Term}, (Term.list members).Inside t →
        ∀ text ∈ texts (members.map ofTerm), Unbroken text := by
      intro members list text member
      rw [texts_eq_map, List.map_map] at member
      obtain ⟨u, isMember, rfl⟩ := List.mem_map.1 member
      exact part u (.of_member isMember list)
    have read := reads t
    generalize ofTerm t = type at read ⊢
    cases read with
    | unsupported | nameless => exact Placeholder.unbroken_text .type
    | malformed => exact Placeholder.unbroken_text _
    | bare => exact unbroken_text_ofBareSubtype (unbroken.name (.of_payload (by simp)))
    | anyFunction | emptyList => decide
    | oddFunction => exact Placeholder.unbroken_text .parameterReturn
    | anyList | anyNonemptyList => decide
    | @function a parameters result =>
      exact Signature.unbroken_text_arrow
        (Parameters.unbroken_text_ofTerm (part parameters (.of_second_list (by simp))))
        (part result (.of_second_list (by simp)))
    | product => exact unbroken_intercalate ", " (by decide) (each (.of_payload (by simp)))
    | union => exact unbroken_intercalate " | " (by decide) (each (.of_payload (by simp)))
    | @tuple a members =>
      have inner : Unbroken (", ".intercalate (texts (members.map ofTerm))) :=
        unbroken_intercalate ", " (by decide) (each (.of_payload (by simp)))
      simp +decide only [text, unbroken_append, inner, and_true]
    | @list a element =>
      have inner := part element (.of_second_list (by simp))
      simp +decide [text, inner]
    | @nonemptyList a element =>
      have inner := part element (.of_second_list (by simp))
      simp +decide [text, inner]
    | @map a members =>
      have fields : ∀ text ∈ Field.texts (members.map fun t => .ofTypespec (ofTerm t)),
          Unbroken text := by
        intro text member
        rw [Field.texts_eq_map, List.map_map] at member
        obtain ⟨u, isMember, rfl⟩ := List.mem_map.1 member
        exact Field.unbroken_text_ofTypespec (part u (.of_second_list isMember))
      have inner := unbroken_intercalate ", " (by decide) fields
      simp +decide only [text, unbroken_append, inner, and_true]
    | @range a low high =>
      have first := part low (.of_second_list (by simp))
      have last := part high (.of_second_list (by simp))
      simp +decide [text, first, last]
    | @bits a size unit =>
      have sized : ∀ u, u.Inside (Construct.type.term a [.atom "binary", .list [size, unit]]) →
          ∀ type, (if u.isZero then none else some (ofTerm u)) = some type →
            Unbroken type.text := by
        intro u inside type given
        split at given
        next => cases given
        next => exact Option.some.inj given ▸ part u inside
      have segments := List.forall_mem_append.2
        ⟨unbroken_segment "_::" (by decide) (sized size (.of_second_list (by simp))),
          unbroken_segment "_::_*" (by decide) (sized unit (.of_second_list (by simp)))⟩
      have inner := unbroken_intercalate ", " (by decide) segments
      simp +decide only [text, unbroken_append, inner, and_true]
    | @builtin a name members =>
      have named : Unbroken name := unbroken.name (.of_payload (by simp))
      exact unbroken_applied (unbroken_builtinName named) (each (.of_payload (by simp)))
    | user =>
      exact unbroken_applied (Spelling.unbroken_ofFunction _) (each (.of_payload (by simp)))
    | @remote a module name moduleName functionName members =>
      have arguments : ∀ text ∈ texts (members.map ofTerm), Unbroken text :=
        each (.of_first_list (by simp))
      have applied := unbroken_applied (Spelling.unbroken_ofFunction functionName) arguments
      simp +decide only [text, unbroken_append, Spelling.unbroken_ofAtom, applied, and_true]
    | @annotated a name type =>
      have first := part name (.of_first_list (by simp))
      have second := part type (.of_first_list (by simp))
      simp +decide [text, first, second]
    | «variable» => exact Spelling.unbroken_ofVariable (unbroken.name (.of_payload (by simp)))
    | atom => exact Spelling.unbroken_ofAtom _
    | integer => exact unbroken.literal (.of_payload (by simp))
    | @unaryOp a operator operand =>
      exact Operator.unbroken_writeUnary (unbroken.atom? (.of_payload (by simp)))
        (part operand (.of_payload (by simp)))
    | @binaryOp a operator left right =>
      exact Operator.unbroken_writeBinary (unbroken.atom? (.of_payload (by simp)))
        (part left (.of_payload (by simp))) (part right (.of_payload (by simp)))

end Typespec

variable {t : Term}

theorem Term.inside_of_typeArguments? {u : Term} {arguments : List Term}
    (known : t.typeArguments? = some arguments) (member : u ∈ arguments) : u.Inside t := by
  obtain ⟨list, position, isList⟩ := Option.bind_eq_some_iff.1 known
  obtain ⟨elements, isTuple, found⟩ := Option.bind_eq_some_iff.1 position
  obtain rfl := Term.list?_eq_some_iff.1 isList
  cases t with
  | tuple =>
    cases isTuple
    exact .of_member member (.of_element (List.mem_of_getElem? found))
  | atom | list | number | string => cases isTuple

theorem Constraint.unbroken_text_ofTerm (unbroken : t.IsUnbroken) :
    Unbroken (Constraint.ofTerm t).text := by
  unfold Constraint.ofTerm
  split
  · split
    next other name type known =>
      have list : (Term.list [name, type]).Inside t :=
        Term.inside_of_typeArguments? known (by simp)
      have nameInside : name.Inside t := .of_member (by simp) list
      have typeInside : type.Inside t := .of_member (by simp) list
      have first := Typespec.unbroken_text_ofTerm (unbroken.inside nameInside)
      have second := Typespec.unbroken_text_ofTerm (unbroken.inside typeInside)
      simp +decide [text, first, second]
    next => exact Placeholder.unbroken_text .parameterReturn
  · exact Typespec.unbroken_text_ofTerm unbroken

theorem Typespec.eq_function_of_signature? {type : Typespec} {signature : Signature}
    (known : type.signature? = some signature) : type = .function signature := by
  cases type with
  | function =>
    cases known
    rfl
  | _ => cases known

theorem BoundedSignature.unbroken_named_bounded {signature : Option Signature}
    {constraints : List Constraint} {name : String} (named : Unbroken name)
    (signed : ∀ s, signature = some s → Unbroken s.text)
    (each : ∀ text ∈ constraints.map Constraint.text, Unbroken text) :
    Unbroken ((BoundedSignature.bounded signature constraints).named name) := by
  have bounds := unbroken_intercalate ", " (by decide) each
  have bounded : ∀ start, Unbroken start →
      Unbroken (if constraints.isEmpty then start
        else start ++ " when " ++ ", ".intercalate (constraints.map Constraint.text)) := by
    intro start stays
    split
    · exact stays
    · exact unbroken_append.2 ⟨unbroken_append.2 ⟨stays, by decide⟩, bounds⟩
  cases signature with
  | none => exact bounded _ (Placeholder.unbroken_text .parameterReturn)
  | some signature => exact bounded _ (Signature.unbroken_named named (signed signature rfl))

theorem BoundedSignature.unbroken_named {bounded : BoundedSignature} {name : String}
    (read : BoundedSignature.ofTerm? t = some bounded) (named : Unbroken name)
    (unbroken : t.IsUnbroken) : Unbroken (bounded.named name) := by
  unfold BoundedSignature.ofTerm? at read
  split at read
  · split at read
    next signature constraints known =>
      obtain rfl := Option.some.inj read
      have inside : ∀ u ∈ [signature, constraints], u.Inside t :=
        fun u => Term.inside_of_typeArguments? known
      rw [List.forall_mem_cons, List.forall_mem_singleton] at inside
      have whole := Typespec.unbroken_text_ofTerm (unbroken.inside inside.1)
      refine unbroken_named_bounded named (fun s known => ?_) fun text member => ?_
      · rw [Typespec.eq_function_of_signature? known] at whole
        exact whole
      · rw [List.map_map] at member
        obtain ⟨u, isMember, rfl⟩ := List.mem_map.1 member
        cases constraints with
        | list =>
          exact Constraint.unbroken_text_ofTerm (unbroken.inside (.of_member isMember inside.2))
        | tuple | atom | number | string => cases isMember
    next =>
      obtain rfl := Option.some.inj read
      exact Placeholder.unbroken_text .parameterReturn
  · cases read

theorem Specification.unbroken_named {name : String} (named : Unbroken name)
    (unbroken : t.IsUnbroken) : Unbroken ((Specification.ofTerm t).named name) := by
  have whole := Typespec.unbroken_text_ofTerm unbroken
  unfold Specification.ofTerm
  simp only
  split
  next signature known =>
    rw [Typespec.eq_function_of_signature? known] at whole
    exact Signature.unbroken_named named whole
  next signature _ read => exact BoundedSignature.unbroken_named read named unbroken
  next => exact whole

end Legible
