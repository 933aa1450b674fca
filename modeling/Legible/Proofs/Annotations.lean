import Legible.Proofs.Expr.Annotations
import Legible.Proofs.Typespec.Annotations

/-!
Annotations, which are never shown.

A term without its annotations reads as the same expression and as the same type. Only what a
warning tells of the term it is about can differ: its line, and the label that spells the term.
-/

set_option autoImplicit false

namespace Legible

theorem headings_eq {warnings warnings' : List Warning}
    (same : warnings.map Warning.withoutDetails = warnings'.map Warning.withoutDetails) :
    warnings.map (·.cause.heading) = warnings'.map (·.cause.heading) := by
  have headings : ∀ ws : List Warning,
      ws.map (·.cause.heading) = (ws.map Warning.withoutDetails).map (·.cause.heading) := by
    intro ws
    rw [List.map_map]
    exact List.map_congr_left fun w _ => (Unsupported.heading_withoutLabel w.cause).symm
  rw [headings, same, ← headings]

/-- Terms that differ in annotations alone are rendered alike: they have one text and declare the
same names in every layout, position and scope, also in the place of a type, and give warnings of
the same kinds in the same order. -/
theorem render_eq_of_sameButAnnotations {t u : Term} (same : t.SameButAnnotations u)
    (layout : Layout) (position : Position) (scope : Scope) :
    let rendered := (Expr.ofTerm t).render layout position scope
    let rendered' := (Expr.ofTerm u).render layout position scope
    (rendered.text = rendered'.text ∧ rendered.declared = rendered'.declared ∧
        rendered.warnings.map (·.cause.heading) = rendered'.warnings.map (·.cause.heading)) ∧
      (Typespec.ofTerm t).text = (Typespec.ofTerm u).text ∧
      (Typespec.ofTerm t).warnings.map (·.cause.heading) =
        (Typespec.ofTerm u).warnings.map (·.cause.heading) := by
  intro rendered rendered'
  obtain ⟨texts, names, warnings⟩ := Rendering.parts_eq_of_mapWarnings_eq
    (Expr.render_mapWarnings_eq same layout position scope)
  have types := Typespec.mapWarnings_eq same
  refine ⟨⟨texts, names, headings_eq warnings⟩, ?_, ?_⟩
  · rw [← Typespec.text_mapWarnings, types, Typespec.text_mapWarnings]
  · refine headings_eq ?_
    rw [← Typespec.warnings_mapWarnings, types, Typespec.warnings_mapWarnings]

/-- A function value under a line and under other annotations; its body is no expression. -/
theorem render_eq_of_sameButAnnotations_closure :
    let clause : Term → Term → Term := fun a b => Construct.clause.term a
      [.list [Construct.variable.term b [.atom "X"]], .list [], .list [.atom "body"]]
    let closure : Term → Term → Term → Term := fun a b c =>
      Construct.funValue.term a [.tuple [.atom "clauses", .list [clause b c]]]
    let line : Term := .number (.integer 7)
    let t := closure line line line
    let u := closure (.tuple [line, line]) (.list []) (.atom "anything")
    t.SameButAnnotations u ∧
      ((Expr.ofTerm t).render {} .expression ∅).text =
        ((Expr.ofTerm u).render {} .expression ∅).text := by
  intro clause closure line t u
  have pattern : (Construct.variable.term line [.atom "X"]).SameButAnnotations
      (Construct.variable.term (.atom "anything") [.atom "X"]) :=
    .of_term _ _ _ rfl (.cons rfl .nil)
  have clauses : (clause line line).SameButAnnotations (clause (.list []) (.atom "anything")) :=
    .of_term _ _ _ rfl (.cons (.of_list (.cons pattern .nil)) (.cons rfl (.cons rfl .nil)))
  have same : t.SameButAnnotations u :=
    .of_term _ _ _ rfl
      (.cons (.of_tuple (.cons rfl (.cons (.of_list (.cons clauses .nil)) .nil))) .nil)
  exact ⟨same, (render_eq_of_sameButAnnotations same {} .expression ∅).1.1⟩

end Legible
