import Mathlib.Data.List.Forall2
import Legible.Proofs.Term.Visits
import Legible.Typespec.Reading

/-!
Terms without their annotations.

The second position of a construct is its annotation. Taking all annotations out of a term leaves
its construct, its payload and all that is looked up in it.
-/

set_option autoImplicit false

namespace Legible

namespace Term

mutual

/-- The term with an empty list in place of the annotation of every construct in it. -/
def withoutAnnotations : Term → Term
  | .tuple elements =>
    .tuple (if (tuple elements).construct?.isSome
      then (withoutAnnotationsAll elements).set 1 (.list [])
      else withoutAnnotationsAll elements)
  | .list elements => .list (withoutAnnotationsAll elements)
  | t => t

def withoutAnnotationsAll : List Term → List Term
  | [] => []
  | t :: rest => t.withoutAnnotations :: withoutAnnotationsAll rest

end

def SameButAnnotations (t u : Term) : Prop :=
  t.withoutAnnotations = u.withoutAnnotations

theorem withoutAnnotationsAll_eq_map (terms : List Term) :
    withoutAnnotationsAll terms = terms.map withoutAnnotations := by
  induction terms with
  | nil => rfl
  | cons t rest ih => rw [withoutAnnotationsAll, ih, List.map_cons]

@[simp] theorem withoutAnnotations_list (elements : List Term) :
    (list elements).withoutAnnotations = .list (elements.map withoutAnnotations) := by
  rw [withoutAnnotations, withoutAnnotationsAll_eq_map]

theorem withoutAnnotations_term (construct : Construct) (a : Term) {payload : List Term}
    (filled : payload.length = construct.payload.length) :
    (construct.term a payload).withoutAnnotations =
      construct.term (.list []) (payload.map withoutAnnotations) := by
  rw [withoutAnnotations, construct?_term construct a payload filled,
    withoutAnnotationsAll_eq_map]
  rfl

theorem withoutAnnotations_tuple {elements : List Term}
    (none : (tuple elements).construct? = none) :
    (tuple elements).withoutAnnotations = .tuple (elements.map withoutAnnotations) := by
  rw [withoutAnnotations, none, withoutAnnotationsAll_eq_map]
  rfl

section
variable (t : Term)

@[simp] theorem atom?_withoutAnnotations : t.withoutAnnotations.atom? = t.atom? := by
  cases t <;> rfl

@[simp] theorem number?_withoutAnnotations : t.withoutAnnotations.number? = t.number? := by
  cases t <;> rfl

@[simp] theorem list?_withoutAnnotations :
    t.withoutAnnotations.list? = t.list?.map (List.map withoutAnnotations) := by
  cases t with
  | list elements => rw [withoutAnnotations_list]; rfl
  | atom | tuple | number | string => rfl

@[simp] theorem members_withoutAnnotations :
    t.withoutAnnotations.members = t.members.map withoutAnnotations := by
  cases t with
  | list elements => rw [withoutAnnotations_list]; rfl
  | atom | tuple | number | string => rfl

@[simp] theorem integer?_withoutAnnotations : t.withoutAnnotations.integer? = t.integer? := by
  rw [integer?, number?_withoutAnnotations, integer?]

@[simp] theorem char?_withoutAnnotations : t.withoutAnnotations.char? = t.char? := by
  rw [char?, integer?_withoutAnnotations, char?]

@[simp] theorem chars?_withoutAnnotations : t.withoutAnnotations.chars? = t.chars? := by
  cases t with
  | list codes =>
    have same : (codes.map withoutAnnotations).mapM (fun code : Term => code.char?) =
        codes.mapM fun code : Term => code.char? := by
      induction codes with
      | nil => rfl
      | cons code rest ih => simp [ih]
    rw [withoutAnnotations_list, chars?, chars?, same]
  | atom | tuple | number | string => rfl

/-- Only the second element of a tuple can be an annotation. -/
theorem element?_withoutAnnotations {position : Nat} (payload : position ≠ 1) :
    t.withoutAnnotations.element? position = (t.element? position).map withoutAnnotations := by
  cases t with
  | tuple elements =>
    simp only [withoutAnnotations, element?, tuple?, Option.bind_some,
      withoutAnnotationsAll_eq_map]
    split
    · rw [List.getElem?_set_ne payload.symm, List.getElem?_map]
    · rw [List.getElem?_map]
  | list elements => rw [withoutAnnotations_list]; rfl
  | atom | number | string => rfl

@[simp] theorem arity?_withoutAnnotations : t.withoutAnnotations.arity? = t.arity? := by
  cases t with
  | tuple elements =>
    simp only [withoutAnnotations, arity?, tuple?, Option.map_some, withoutAnnotationsAll_eq_map]
    split
    · rw [List.length_set, List.length_map]
    · rw [List.length_map]
  | list elements => rw [withoutAnnotations_list]; rfl
  | atom | number | string => rfl

theorem tag?_eq_bind : t.tag? = (t.element? 0).bind atom? := by
  unfold tag?
  split
  · rfl
  next other =>
    cases t with
    | tuple elements =>
      rcases elements with _ | ⟨first, rest⟩
      · rfl
      · cases first with
        | atom name => exact absurd rfl (other name rest)
        | tuple | list | number | string => rfl
    | atom | list | number | string => rfl

@[simp] theorem tag?_withoutAnnotations : t.withoutAnnotations.tag? = t.tag? := by
  rw [tag?_eq_bind, tag?_eq_bind, element?_withoutAnnotations t (by decide)]
  cases t.element? 0 with
  | none => rfl
  | some first => exact atom?_withoutAnnotations first

@[simp] theorem construct?_withoutAnnotations : t.withoutAnnotations.construct? = t.construct? := by
  rw [construct?, tag?_withoutAnnotations, arity?_withoutAnnotations, construct?]

@[simp] theorem accepts_withoutAnnotations (construct : Construct) :
    construct.accepts t.withoutAnnotations = construct.accepts t := by
  rw [Construct.accepts, tag?_withoutAnnotations, arity?_withoutAnnotations, Construct.accepts]

theorem bind_element?_withoutAnnotations {α : Type} {read : Term → Option α}
    (same : ∀ u : Term, read u.withoutAnnotations = read u) {position : Nat}
    (payload : position ≠ 1) :
    (t.withoutAnnotations.element? position).bind read = (t.element? position).bind read := by
  rw [element?_withoutAnnotations t payload]
  cases t.element? position with
  | none => rfl
  | some u => exact same u

@[simp] theorem quotedAtom?_withoutAnnotations :
    t.withoutAnnotations.quotedAtom? = t.quotedAtom? := by
  rw [quotedAtom?, accepts_withoutAnnotations,
    bind_element?_withoutAnnotations t atom?_withoutAnnotations (by decide), quotedAtom?]

@[simp] theorem name?_withoutAnnotations : t.withoutAnnotations.name? = t.name? := by
  rw [name?, atom?_withoutAnnotations, quotedAtom?_withoutAnnotations, name?]

@[simp] theorem count?_withoutAnnotations : t.withoutAnnotations.count? = t.count? := by
  rw [count?, integer?_withoutAnnotations, accepts_withoutAnnotations,
    bind_element?_withoutAnnotations t integer?_withoutAnnotations (by decide), count?]

@[simp] theorem subtype?_withoutAnnotations : t.withoutAnnotations.subtype? = t.subtype? := by
  rw [subtype?, accepts_withoutAnnotations,
    bind_element?_withoutAnnotations t atom?_withoutAnnotations (by decide), subtype?]

@[simp] theorem isZero_withoutAnnotations : t.withoutAnnotations.isZero = t.isZero := by
  rw [isZero, bind_element?_withoutAnnotations t integer?_withoutAnnotations (by decide), isZero]

@[simp] theorem isAnyParameters_withoutAnnotations :
    t.withoutAnnotations.isAnyParameters = t.isAnyParameters := by
  rw [isAnyParameters, accepts_withoutAnnotations,
    bind_element?_withoutAnnotations t atom?_withoutAnnotations (by decide), isAnyParameters]

end

namespace SameButAnnotations

variable {left right : List Term}

theorem map_eq (same : List.Forall₂ SameButAnnotations left right) :
    left.map withoutAnnotations = right.map withoutAnnotations := by
  induction same with
  | nil => rfl
  | cons first _ ih => rw [List.map_cons, List.map_cons, ih, first]

theorem of_term (construct : Construct) (a b : Term)
    (filled : left.length = construct.payload.length)
    (same : List.Forall₂ SameButAnnotations left right) :
    (construct.term a left).SameButAnnotations (construct.term b right) := by
  unfold SameButAnnotations
  rw [withoutAnnotations_term construct a filled,
    withoutAnnotations_term construct b (same.length_eq ▸ filled), map_eq same]

theorem of_list (same : List.Forall₂ SameButAnnotations left right) :
    (list left).SameButAnnotations (.list right) := by
  unfold SameButAnnotations
  rw [withoutAnnotations_list, withoutAnnotations_list, map_eq same]

theorem of_tuple (same : List.Forall₂ SameButAnnotations left right) :
    (tuple left).SameButAnnotations (.tuple right) := by
  have tags : (tuple left).tag? = (tuple right).tag? := by
    rw [tag?_eq_bind, tag?_eq_bind]
    cases same with
    | nil => rfl
    | @cons first first' _ _ alike =>
      change first.atom? = first'.atom?
      rw [← atom?_withoutAnnotations, alike, atom?_withoutAnnotations]
  have arities : (tuple left).arity? = (tuple right).arity? := congrArg some same.length_eq
  unfold SameButAnnotations
  -- Tag and arity decide whether the second elements are annotations, so they are on both sides.
  rw [withoutAnnotations, withoutAnnotations, construct?, tags, arities, ← construct?,
    withoutAnnotationsAll_eq_map, withoutAnnotationsAll_eq_map, map_eq same]

end SameButAnnotations

theorem tests_withoutAnnotations (t : Term) :
    t.withoutAnnotations.tests = t.tests.map withoutAnnotations := by
  cases t with
  | list elements =>
    rw [withoutAnnotations_list]
    rfl
  | atom | tuple | number | string => rfl

/-- A tuple under a tag that is no construct of its length keeps all its elements. -/
theorem eq_tuple_of_withoutAnnotations {t : Term} {tag : String} {rest : List Term}
    (stripped : t.withoutAnnotations = .tuple (.atom tag :: rest)) :
    ∃ inner, t = .tuple (.atom tag :: inner) ∧ inner.length = rest.length := by
  have hasTag : t.tag? = some tag := by
    rw [← tag?_withoutAnnotations, stripped]
    rfl
  have hasArity : t.arity? = some (rest.length + 1) := by
    rw [← arity?_withoutAnnotations, stripped]
    rfl
  cases t with
  | tuple elements =>
    rcases elements with _ | ⟨first, inner⟩
    · cases hasTag
    · cases first with
      | atom name =>
        cases hasTag
        exact ⟨inner, rfl, by simpa [arity?, tuple?] using hasArity⟩
      | tuple | list | number | string => cases hasTag
  | atom | list | number | string => cases hasTag

theorem eq_list_of_withoutAnnotations {t : Term} {members : List Term}
    (stripped : t.withoutAnnotations = .list members) :
    ∃ inner, t = .list inner ∧ inner.map withoutAnnotations = members := by
  have inList : t.withoutAnnotations.list? = some members := by
    rw [stripped]
    rfl
  rw [list?_withoutAnnotations, Option.map_eq_some_iff] at inList
  obtain ⟨inner, list, same⟩ := inList
  exact ⟨inner, list?_eq_some_iff.1 list, same⟩

theorem Malformed.withoutAnnotations {t : Term} {what : Placeholder}
    (malformed : t.Malformed what) : t.withoutAnnotations.Malformed what := by
  cases malformed <;> rw [withoutAnnotations_term _ _ rfl]
  case «variable» noAtom => exact .variable ((atom?_withoutAnnotations _).trans noAtom)
  case atom noAtom => exact .atom ((atom?_withoutAnnotations _).trans noAtom)
  case integer noNumber => exact .integer ((number?_withoutAnnotations _).trans noNumber)
  case float noNumber => exact .float ((number?_withoutAnnotations _).trans noNumber)
  case char noInteger => exact .char ((integer?_withoutAnnotations _).trans noInteger)
  case string noText => exact .string ((chars?_withoutAnnotations _).trans noText)
  case tuple noList => exact .tuple (by simp [noList])
  case call noList => exact .call (by simp [noList])
  case closure noList => exact .closure (by simp [noList])
  case localCapture unknown => exact .localCapture (by simpa using unknown)
  case funValue closure localCapture remoteCapture =>
    refine .funValue ?_ ?_ ?_
    · intro y stripped
      obtain ⟨inner, rfl, sameLength⟩ := eq_tuple_of_withoutAnnotations stripped
      match inner, sameLength with
      | [y], _ => exact closure y rfl
    · intro y z stripped
      obtain ⟨inner, rfl, sameLength⟩ := eq_tuple_of_withoutAnnotations stripped
      match inner, sameLength with
      | [y, z], _ => exact localCapture y z rfl
    · intro y z w stripped
      obtain ⟨inner, rfl, sameLength⟩ := eq_tuple_of_withoutAnnotations stripped
      match inner, sameLength with
      | [y, z, w], _ => exact remoteCapture y z w rfl
  case caseOf noList => exact .caseOf (by simp [noList])
  case ifOf noList => exact .ifOf (by simp [noList])
  case receive noList => exact .receive (by simp [noList])
  case receiveAfter noList => exact .receiveAfter (by simpa using noList)
  case block noList => exact .block (by simp [noList])

end Term

def Unsupported.withoutLabel : Unsupported → Unsupported
  | .misplaced construct => .misplaced construct
  | .expression _ => .expression ""
  | .type _ => .type ""
  | .form _ => .form ""
  | .attribute _ => .attribute ""

theorem Unsupported.heading_withoutLabel (cause : Unsupported) :
    cause.withoutLabel.heading = cause.heading := by
  cases cause <;> rfl

def Warning.withoutDetails (w : Warning) : Warning where
  cause := w.cause.withoutLabel
  line := none

theorem Unsupported.withoutLabel_ofExpression (t : Term) :
    (Unsupported.ofExpression t.withoutAnnotations).withoutLabel =
      (Unsupported.ofExpression t).withoutLabel := by
  rw [Unsupported.ofExpression, Term.construct?_withoutAnnotations, Unsupported.ofExpression]
  cases t.construct? <;> rfl

end Legible
