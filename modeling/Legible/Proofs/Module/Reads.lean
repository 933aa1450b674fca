import Legible.Module.Form
import Legible.Module.Facts
import Legible.Proofs.Expr.Reads

/-!
What a term reads as in the place of a form, with one case for each kind of form and for each way
in which one can be malformed.
-/

set_option autoImplicit false

namespace Legible

def Construct.isForm : Construct → Bool
  | .function | .attribute | .endOfFile => true
  | _ => false

theorem Term.attribute?_eq_some_iff {t value : Term} {label : String} :
    t.attribute? = some (label, value) ↔
      ∃ a, t = Construct.attribute.term a [.atom label, value] := by
  constructor
  · intro found
    simp only [attribute?] at found
    split at found
    next accepts =>
      obtain ⟨a, payload, rfl, filled⟩ := eq_term_of_construct? (construct?_eq_some_iff.2 accepts)
      match payload, filled with
      | [x, y], _ =>
        cases x with
        | atom => cases found; exact ⟨a, rfl⟩
        | tuple | list | number | string => cases found
    next => cases found
  · rintro ⟨a, rfl⟩
    rfl

namespace FormContent

def shownAttributes : List String :=
  ["spec", "callback", "type", "opaque", "behaviour", "behavior"]

inductive Reads : Term → FormContent → Prop
  | function {a name arity : Term} {clauses : List Term} :
      Reads (Construct.function.term a [name, arity, .list clauses])
        (.function name.atom? arity.integer? (clauses.map Expr.clauseOfTerm))
  | functionHole {a name arity x : Term} : x.list? = none →
      Reads (Construct.function.term a [name, arity, x]) (.placeholder .clauses)
  | silent {a value : Term} {label : String} : label ∈ silentAttributes →
      Reads (Construct.attribute.term a [.atom label, value]) .silent
  | specification {a value : Term} {label function : String} {signatures : List Term} :
      label = "spec" ∨ label = "callback" →
      (value.element? 0).bind specifiedFunction? = some function →
      value.element? 1 = some (.list signatures) →
      Reads (Construct.attribute.term a [.atom label, value])
        (.specification label function (signatures.map Specification.ofTerm))
  | specificationHole {a value : Term} {label : String} :
      label = "spec" ∨ label = "callback" →
      (value.element? 0).bind specifiedFunction? = none ∨
        (value.element? 1).bind Term.list? = none →
      Reads (Construct.attribute.term a [.atom label, value]) (.malformedSpecification label)
  | typeDeclaration {a name definition parameters : Term} {label : String} :
      label = "type" ∨ label = "opaque" →
      Reads (Construct.attribute.term a [.atom label, .tuple [name, definition, parameters]])
        (.typeDeclaration label name.atom? (parameters.list?.map Typespec.ofTerms)
          (.ofTerm definition))
  | typeHole {a value : Term} {label : String} : label = "type" ∨ label = "opaque" →
      (∀ name definition parameters, value ≠ .tuple [name, definition, parameters]) →
      Reads (Construct.attribute.term a [.atom label, value]) (.malformedTypeDeclaration label)
  | behaviour {a : Term} {label module : String} : label = "behaviour" ∨ label = "behavior" →
      Reads (Construct.attribute.term a [.atom label, .atom module]) (.behaviour module)
  | behaviourHole {a value : Term} {label : String} :
      label = "behaviour" ∨ label = "behavior" → value.atom? = none →
      Reads (Construct.attribute.term a [.atom label, value]) (.placeholder .code)
  | skipped {a value : Term} {label : String} : label ∉ silentAttributes →
      label ∉ shownAttributes →
      Reads (Construct.attribute.term a [.atom label, value]) (.skippedAttribute label)
  | nameless {a x value : Term} : x.atom? = none →
      Reads (Construct.attribute.term a [x, value]) (.placeholder .code)
  | endOfFile {a : Term} : Reads (Construct.endOfFile.term a []) .silent
  | unsupported {t : Term} : (∀ c, t.construct? = some c → c.isForm = false) →
      Reads t (.unsupported (.form t.label))

theorem ofTerm_function (a name arity : Term) (clauses : List Term) :
    ofTerm (Construct.function.term a [name, arity, .list clauses]) =
      .function name.atom? arity.integer? (clauses.map Expr.clauseOfTerm) := by
  rw [← Expr.clausesOfTerms_eq_map]
  rfl

theorem ofTerm_functionHole (a name arity : Term) {x : Term} (noList : x.list? = none) :
    ofTerm (Construct.function.term a [name, arity, x]) = .placeholder .clauses := by
  cases x with
  | list => cases noList
  | tuple | atom | number | string => rfl

private theorem reads_specification {label : String} (known : label = "spec" ∨ label = "callback")
    (a value : Term) :
    Reads (Construct.attribute.term a [.atom label, value]) (ofSpecification label value) := by
  unfold ofSpecification
  split
  next function signatures named listed =>
    obtain ⟨second, found, list⟩ := Option.bind_eq_some_iff.1 listed
    exact .specification known named (Term.list?_eq_some_iff.1 list ▸ found)
  next missing =>
    refine .specificationHole known ?_
    cases named : (value.element? 0).bind specifiedFunction? with
    | none => exact .inl rfl
    | some function =>
      cases listed : (value.element? 1).bind Term.list? with
      | none => exact .inr rfl
      | some signatures => exact absurd listed (missing function signatures named)

private theorem reads_typeDeclaration {label : String} (known : label = "type" ∨ label = "opaque")
    (a value : Term) :
    Reads (Construct.attribute.term a [.atom label, value]) (ofTypeDeclaration label value) := by
  unfold ofTypeDeclaration
  split
  next => exact .typeDeclaration known
  next other => exact .typeHole known other

private theorem reads_behaviour {label : String}
    (known : label = "behaviour" ∨ label = "behavior") (a value : Term) :
    Reads (Construct.attribute.term a [.atom label, value]) (ofBehaviour value) := by
  cases value with
  | atom => exact .behaviour known
  | tuple | list | number | string => exact .behaviourHole known rfl

private theorem reads_attribute (a value : Term) (label : String) :
    Reads (Construct.attribute.term a [.atom label, value]) (ofAttribute label value) := by
  unfold ofAttribute
  split
  next silent => exact .silent (List.contains_iff_mem.1 silent)
  next noted =>
  split
  next known => exact reads_specification known a value
  next noSpecification =>
  split
  next known => exact reads_typeDeclaration known a value
  next noType =>
  split
  next known => exact reads_behaviour known a value
  next noBehaviour =>
    refine .skipped (fun silent => noted (List.contains_iff_mem.2 silent)) ?_
    simp only [shownAttributes, List.mem_cons, List.not_mem_nil, or_false]
    grind

theorem reads (t : Term) : Reads t (ofTerm t) := by
  by_cases found : ∃ construct, t.construct? = some construct ∧ construct.isForm = true
  · obtain ⟨construct, found, isForm⟩ := found
    obtain ⟨a, payload, rfl, filled⟩ := Term.eq_term_of_construct? found
    cases construct with
    | function =>
      match payload, filled with
      | [name, arity, x], _ =>
        cases list : x.list? with
        | some clauses =>
          obtain rfl := Term.list?_eq_some_iff.1 list
          rw [ofTerm_function]
          exact .function
        | none =>
          rw [ofTerm_functionHole a name arity list]
          exact .functionHole list
    | «attribute» =>
      match payload, filled with
      | [.atom label, value], _ => exact reads_attribute a value label
      | [.tuple _, _], _ | [.list _, _], _ | [.number _, _], _ | [.string _, _], _ =>
        exact .nameless rfl
    | endOfFile => match payload, filled with | [], _ => exact .endOfFile
    | «variable» | atom | integer | float | char | string | emptyList | cons | tuple | map
    | mapUpdate | mapFieldAssoc | mapFieldExact | matching | binaryOp | unaryOp | call | remote
    | funValue | caseOf | ifOf | receive | receiveAfter | block | clause | type | typeOfAnything
    | userType | remoteType | annotatedType => cases isForm
  · have foreign : ∀ c, t.construct? = some c → c.isForm = false := fun c isC =>
      Bool.eq_false_iff.2 fun isForm => found ⟨c, isC, isForm⟩
    have read : ofTerm t = .unsupported (.form t.label) := by
      unfold ofTerm
      split
      all_goals first
        | rfl
        | next found => exact absurd (foreign _ found) (by decide)
    rw [read]
    exact .unsupported foreign

end FormContent

end Legible
