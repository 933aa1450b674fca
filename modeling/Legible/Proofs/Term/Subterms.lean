import Legible.Term.Construct

/-!
Terms inside terms, and the induction that they carry.

A construct is met in proofs as the tuple that it stands for, `Construct.term`.
-/

set_option autoImplicit false

namespace Legible

/-- The tuple of a construct, with its annotation and its payload. -/
@[reducible] def Construct.term (construct : Construct) (a : Term) (payload : List Term) :
    Term :=
  .tuple (.atom construct.tag :: a :: payload)

namespace Term

def elements : Term → List Term
  | .tuple elements => elements
  | .list elements => elements
  | _ => []

mutual

def subterms : Term → List Term
  | .tuple elements => .tuple elements :: subtermsOf elements
  | .list elements => .list elements :: subtermsOf elements
  | t => [t]

def subtermsOf : List Term → List Term
  | [] => []
  | t :: rest => t.subterms ++ subtermsOf rest

end

theorem subtermsOf_eq_flatMap (terms : List Term) : subtermsOf terms = terms.flatMap subterms := by
  induction terms with
  | nil => rfl
  | cons t rest ih => rw [subtermsOf, ih, List.flatMap_cons]

@[simp] theorem mem_subtermsOf {t : Term} {terms : List Term} :
    t ∈ subtermsOf terms ↔ ∃ u ∈ terms, t ∈ u.subterms := by
  induction terms with
  | nil => simp [subtermsOf]
  | cons u rest ih => simp [subtermsOf, ih]

theorem mem_subterms_iff {t u : Term} :
    t ∈ u.subterms ↔ t = u ∨ ∃ e ∈ u.elements, t ∈ e.subterms := by
  cases u <;> simp [subterms, elements]

theorem mem_subterms_self (t : Term) : t ∈ t.subterms :=
  mem_subterms_iff.2 (.inl rfl)

theorem sizeOf_lt_of_mem_elements {t u : Term} (member : t ∈ u.elements) : sizeOf t < sizeOf u := by
  cases u with
  | tuple elements =>
    have := List.sizeOf_lt_of_mem (show t ∈ elements from member)
    simp only [tuple.sizeOf_spec]
    omega
  | list elements =>
    have := List.sizeOf_lt_of_mem (show t ∈ elements from member)
    simp only [list.sizeOf_spec]
    omega
  | atom | number | string => exact absurd member List.not_mem_nil

theorem mem_subterms_trans {t u v : Term} (first : t ∈ u.subterms) (second : u ∈ v.subterms) :
    t ∈ v.subterms := by
  rcases mem_subterms_iff.1 second with rfl | ⟨e, member, deeper⟩
  · exact first
  · exact mem_subterms_iff.2 (.inr ⟨e, member, mem_subterms_trans first deeper⟩)
termination_by sizeOf v
decreasing_by exact sizeOf_lt_of_mem_elements member

theorem sizeOf_le_of_mem_subterms {t u : Term} (member : t ∈ u.subterms) :
    sizeOf t ≤ sizeOf u := by
  rcases mem_subterms_iff.1 member with rfl | ⟨e, inside, deeper⟩
  · exact Nat.le_refl _
  · have shallower := sizeOf_lt_of_mem_elements inside
    have := sizeOf_le_of_mem_subterms deeper
    omega
termination_by sizeOf u
decreasing_by exact shallower

def Inside (t u : Term) : Prop :=
  ∃ e ∈ u.elements, t ∈ e.subterms

namespace Inside

theorem of_element {t u : Term} (member : t ∈ u.elements) : t.Inside u :=
  ⟨t, member, t.mem_subterms_self⟩

theorem mem_subterms {t u : Term} (inside : t.Inside u) : t ∈ u.subterms :=
  mem_subterms_iff.2 (.inr inside)

theorem trans {t u v : Term} (first : t.Inside u) (second : u.Inside v) : t.Inside v := by
  obtain ⟨e, member, deeper⟩ := second
  exact ⟨e, member, mem_subterms_trans first.mem_subterms deeper⟩

theorem of_payload {construct : Construct} {a t : Term} {payload : List Term}
    (member : t ∈ payload) : t.Inside (construct.term a payload) :=
  of_element (List.mem_cons_of_mem _ (List.mem_cons_of_mem _ member))

theorem of_tagged (tag : Term) {t : Term} {rest : List Term} (member : t ∈ rest) :
    t.Inside (.tuple (tag :: rest)) :=
  of_element (List.mem_cons_of_mem tag member)

theorem of_member {t u : Term} {members : List Term} (member : t ∈ members)
    (list : (Term.list members).Inside u) : t.Inside u :=
  trans (of_element (u := .list members) member) list

theorem of_first_list {construct : Construct} {a t : Term} {members : List Term}
    (member : t ∈ members) : t.Inside (construct.term a [.list members]) :=
  of_member member (of_payload List.mem_cons_self)

theorem of_second_list {construct : Construct} {a x t : Term} {members : List Term}
    (member : t ∈ members) : t.Inside (construct.term a [x, .list members]) :=
  of_member member (of_payload (List.mem_cons_of_mem x List.mem_cons_self))

theorem sizeOf_lt {t u : Term} (inside : t.Inside u) : sizeOf t < sizeOf u := by
  obtain ⟨e, member, deeper⟩ := inside
  exact Nat.lt_of_le_of_lt (sizeOf_le_of_mem_subterms deeper) (sizeOf_lt_of_mem_elements member)

end Inside

/-- What holds of a term as soon as it holds of all terms inside it, holds of every term. -/
theorem inside_induction {motive : Term → Prop}
    (step : ∀ t, (∀ u, u.Inside t → motive u) → motive t) (t : Term) : motive t := by
  apply step
  intro u inside
  have smaller := inside.sizeOf_lt
  exact inside_induction step u
termination_by sizeOf t

end Term

end Legible
