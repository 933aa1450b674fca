import Legible.Expr.Render

/-!
How an element before a list is rendered.

The list is written out as far as it is known, which hides that its head and its tail are rendered
like any two siblings. `render_cons` says that they are.
-/

set_option autoImplicit false

namespace Legible.Expr

variable (layout : Layout)

def restText (elements : List Expr) (position : Position) (scope : Scope) : String :=
  (if elements.isEmpty then "" else ", ") ++
    ((renderAll layout elements position scope).join ", ").text

def tailText (tail : Expr) (position : Position) (scope : Scope) : String :=
  match tail with
  | .list elements => restText layout elements position scope
  | .openList elements last =>
    let inner := (renderAll layout elements position scope).join ", "
    restText layout elements position scope ++ " | " ++
      (last.render layout position (scope.thread inner.declared)).text
  | tail => " | " ++ (tail.render layout position scope).text

theorem join_renderAll_cons (e : Expr) (rest : List Expr) (position : Position) (scope : Scope) :
    let first := e.render layout position scope
    (renderAll layout (e :: rest) position scope).join ", " =
      { text := first.text ++ restText layout rest position (scope.thread first.declared)
        declared := first.declared ∪
          (renderAll layout rest position (scope.thread first.declared)).declared
        warnings := first.warnings ++
          (renderAll layout rest position (scope.thread first.declared)).warnings } := by
  cases rest with
  | nil => simp [renderAll, restText, Sequence.join, Sequence.cons, Sequence.empty]
  | cons =>
    simp [renderAll, restText, Sequence.join, Sequence.cons, String.intercalate_cons_cons,
      String.append_assoc]

theorem render_list (elements : List Expr) (position : Position) (scope : Scope) :
    (Expr.list elements).render layout position scope =
      let inner := (renderAll layout elements position scope).join ", "
      { inner with text := "[" ++ inner.text ++ "]" } := rfl

theorem render_openList (elements : List Expr) (tail : Expr) (position : Position)
    (scope : Scope) :
    (openList elements tail).render layout position scope =
      let inner := (renderAll layout elements position scope).join ", "
      let last := tail.render layout position (scope.thread inner.declared)
      { text := "[" ++ inner.text ++ " | " ++ last.text ++ "]"
        declared := inner.declared ∪ last.declared
        warnings := inner.warnings ++ last.warnings } := rfl

theorem render_cons (head tail : Expr) (position : Position) (scope : Scope) :
    (cons head tail).render layout position scope =
      let first := head.render layout position scope
      let later := scope.thread first.declared
      let last := tail.render layout position later
      { text := "[" ++ first.text ++ tail.tailText layout position later ++ "]"
        declared := first.declared ∪ last.declared
        warnings := first.warnings ++ last.warnings } := by
  -- A list takes the element in, and anything else becomes the end of a list of one element.
  cases tail with
  | list =>
    simp only [cons, render_list, join_renderAll_cons, tailText, String.append_assoc]
    rfl
  | openList =>
    simp only [cons, render_openList, join_renderAll_cons, tailText, Scope.thread_thread,
      Scope.union_assoc, String.append_assoc, List.append_assoc]
    rfl
  | _ =>
    simp [cons, render_openList, renderAll, tailText, Sequence.join, Sequence.cons, Sequence.empty,
      String.append_assoc]

theorem tailText_cons (head tail : Expr) (position : Position) (scope : Scope) :
    (cons head tail).tailText layout position scope =
      let first := head.render layout position scope
      ", " ++ first.text ++ tail.tailText layout position (scope.thread first.declared) := by
  have nonempty : ∀ elements : List Expr,
      restText layout (head :: elements) position scope =
        ", " ++ ((renderAll layout (head :: elements) position scope).join ", ").text :=
    fun _ => rfl
  cases tail with
  | list => simp only [cons, tailText, nonempty, join_renderAll_cons, String.append_assoc]
  | openList =>
    simp only [cons, tailText, nonempty, join_renderAll_cons, Scope.thread_thread,
      String.append_assoc]
    rfl
  | _ =>
    simp [cons, tailText, nonempty, renderAll, Sequence.join, Sequence.cons, Sequence.empty,
      String.append_assoc]

end Legible.Expr
