import Legible.Proofs.Declared

/-!
Siblings, cut anywhere and one by one.

A list of siblings is rendered as its first part and then, in the scope that this part leaves, as
the rest. So it makes no difference where the list is cut, and each sibling can as well be rendered
alone, in the scope that all earlier ones leave together.
-/

set_option autoImplicit false

namespace Legible

namespace Sequence

def ofList (renderings : List Rendering) : Sequence :=
  renderings.foldr cons empty

@[simp] theorem ofList_cons (first : Rendering) (rest : List Rendering) :
    ofList (first :: rest) = cons first (ofList rest) := rfl

@[simp] theorem texts_ofList (renderings : List Rendering) :
    (ofList renderings).texts = renderings.map Rendering.text := by
  induction renderings with
  | nil => rfl
  | cons first rest ih => simp [cons, ih]

@[simp] theorem warnings_ofList (renderings : List Rendering) :
    (ofList renderings).warnings = renderings.flatMap Rendering.warnings := by
  induction renderings with
  | nil => rfl
  | cons first rest ih => simp [cons, ih]

def append (first second : Sequence) : Sequence where
  texts := first.texts ++ second.texts
  declared := first.declared ∪ second.declared
  warnings := first.warnings ++ second.warnings

theorem empty_append {second : Sequence} (free : second.declared.pinning = false) :
    empty.append second = second := by
  unfold append
  rw [empty, Scope.empty_union_of_free free]
  rfl

theorem cons_append (e : Rendering) (first second : Sequence) :
    (cons e first).append second = cons e (first.append second) := by
  simp [append, cons, Scope.union_assoc]

end Sequence

namespace Expr

variable (layout : Layout) (position : Position)

theorem renderAll_cons (e : Expr) (rest : List Expr) (scope : Scope) :
    renderAll layout (e :: rest) position scope =
      let first := e.render layout position scope
      .cons first (renderAll layout rest position (scope.thread first.declared)) := rfl

theorem free_renderAll (terms : List Term) (scope : Scope) :
    (renderAll layout (terms.map ofTerm) position scope).declared.pinning = false :=
  (renderAll_declares (fun t _ => declaresBound layout t) position scope).free

theorem renderAll_append (before after : List Term) (scope : Scope) :
    renderAll layout ((before ++ after).map ofTerm) position scope =
      let first := renderAll layout (before.map ofTerm) position scope
      first.append (renderAll layout (after.map ofTerm) position (scope.thread first.declared)) := by
  induction before generalizing scope with
  | nil =>
    have nothing : renderAll layout ([].map ofTerm) position scope = .empty := rfl
    have kept : scope.thread Sequence.empty.declared = scope := scope.thread_empty
    simp only [List.nil_append, nothing, kept]
    exact (Sequence.empty_append (free_renderAll layout position after scope)).symm
  | cons t rest ih =>
    -- What the whole first part leaves is what its first sibling and then the others leave.
    simp only [List.cons_append, List.map_cons, renderAll_cons, ih, Sequence.cons_append,
      Scope.thread_thread]
    rfl

/-- Siblings one by one, each in the scope that all earlier ones leave together: `earlier` is what
those have declared. -/
def renderEach (scope earlier : Scope) : List Expr → List Rendering
  | [] => []
  | e :: rest =>
    let first := e.render layout position (scope.thread earlier)
    first :: renderEach scope (earlier ∪ first.declared) rest

/-- To render siblings one by one is to render them together. -/
theorem ofList_renderEach (elements : List Expr) (scope earlier : Scope) :
    Sequence.ofList (renderEach layout position scope earlier elements) =
      renderAll layout elements position (scope.thread earlier) := by
  induction elements generalizing earlier with
  | nil => rfl
  | cons e rest ih =>
    simp only [renderEach, Sequence.ofList_cons, ih, renderAll_cons, Scope.thread_thread]

/-- A body may be cut anywhere: its parts, each rendered in the scope that the part before leaves,
yield what the whole body does. So do its elements one by one, each in the scope that all earlier
ones leave together. -/
theorem renderAll_cut (scope : Scope) (before after : List Term) :
    let first := renderAll layout (ofTerms before) position scope
    let second := renderAll layout (ofTerms after) position (scope.thread first.declared)
    let whole := renderAll layout (ofTerms (before ++ after)) position scope
    let each := renderEach layout position scope ∅ (ofTerms (before ++ after))
    whole.texts = first.texts ++ second.texts ∧
      whole.declared = first.declared ∪ second.declared ∧
      whole.warnings = first.warnings ++ second.warnings ∧
      each.map Rendering.text = whole.texts := by
  intro first second whole each
  have cut : whole = first.append second := by
    simp only [whole, first, second, ofTerms_eq_map]
    exact renderAll_append layout position before after scope
  have alone : Sequence.ofList each = whole := by
    simp only [each, whole, ofList_renderEach, Scope.thread_empty]
  refine ⟨congrArg Sequence.texts cut, congrArg Sequence.declared cut,
    congrArg Sequence.warnings cut, ?_⟩
  rw [← alone, Sequence.texts_ofList]

end Expr

end Legible
