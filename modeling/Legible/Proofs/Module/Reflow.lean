import Legible.Problem
import Legible.Proofs.Expr.Reflow
import Legible.Proofs.Text.Content

/-!
Modules in two layouts.

A layout decides on margins, empty lines and comments with line numbers, and on nothing else.
-/

set_option autoImplicit false

namespace Legible

open List (Forall₂)
open Text (Reflowed SameContent content closing leading kept)

variable {layout layout' : Layout}

namespace FormContent

theorem definition_reflowed (keyword name : String) {left right : ClauseRendering}
    (related : RelatedClause (.reflow layout layout') .equal left right) :
    Reflowed (definition layout keyword name left).toList
      (definition layout' keyword name right).toList := by
  let texts := TextCongruence.reflow layout layout'
  have heads : texts.Same (keyword ++ " " ++ name ++ parenthesized left.head)
      (keyword ++ " " ++ name ++ parenthesized right.head) := by
    simpa [texts, TextCongruence.reflow] using
      (Reflowed.refl (keyword ++ " " ++ name).toList).append (texts.parenthesized related.head)
  have guards := related.guard
  unfold definition
  revert guards
  generalize left.guard = guard, right.guard = guard'
  have block := fun {opening opening' : String} (openings : texts.Same opening opening') =>
    related.body.sameLines.block (texts.before " do" (by decide) openings)
      layout.width layout'.width 'e' ['n', 'd']
  rintro (both | _)
  · simpa [Layout.toList_indent] using block (texts.around " when " (by decide) heads both)
  · simpa [Layout.toList_indent] using block heads

variable (layout layout')

theorem renderDefinition_related (keyword name : String) (clause : Clause) :
    let left := renderDefinition layout keyword name clause
    let right := renderDefinition layout' keyword name clause
    Reflowed left.1.toList right.1.toList ∧ left.2 = right.2 := by
  have related : Option.Rel (RelatedClause (.reflow layout layout') .equal)
      (Expr.renderClause layout .function clause ∅)
      (Expr.renderClause layout' .function clause ∅) :=
    Expr.renderClause_related rfl .function fun e _ => e.reflow layout layout'
  simp only [renderDefinition]
  revert related
  generalize Expr.renderClause layout .function clause ∅ = left
  generalize Expr.renderClause layout' .function clause ∅ = right
  rintro (parts | _)
  · exact ⟨definition_reflowed keyword name parts, parts.warnings⟩
  · exact ⟨.refl _, rfl⟩

structure RelatedForm (Same : List Char → List Char → Prop) (left right : FormRendering) :
    Prop where
  text : Option.Rel (fun text text' => Same text.toList text'.toList) left.text right.text
  warnings : left.warnings = right.warnings

theorem render_related (facts : ModuleFacts) (line : Option Int64) (content : FormContent) :
    RelatedForm Reflowed (content.render layout facts line)
      (content.render layout' facts line) := by
  cases content with
  | function name arity clauses =>
    have each := renderDefinition_related layout layout' (keyword facts name arity)
      (functionName name)
    refine ⟨.some ((TextCongruence.reflow layout layout').intercalate "\n\n" (by decide) ?_), ?_⟩
    · rw [List.map_map, List.map_map, List.forall₂_map_left_iff, List.forall₂_map_right_iff]
      exact List.forall₂_same.2 fun clause _ => (each clause).1
    · simp only [render, List.flatMap_map]
      exact List.flatMap_congr fun clause _ => (each clause).2
  | silent | skippedAttribute => exact ⟨.none, rfl⟩
  | _ => exact ⟨.some (.refl _), rfl⟩

end FormContent

variable (layout layout')

theorem sameContent_commented (line : Option Int64) {text text' : String}
    (same : SameContent text.toList text'.toList) :
    SameContent (Form.commented layout line text).toList
      (Form.commented layout' line text').toList := by
  -- The comment adds a line that says nothing, whether it is there or not.
  have said : ∀ (layout : Layout) (text : String),
      closing (Form.commented layout line text).toList = closing text.toList ∧
        leading (Form.commented layout line text).toList = leading text.toList := by
    intro layout text
    unfold Form.commented
    cases line with
    | none => exact ⟨rfl, rfl⟩
    | some line =>
      have silent := Text.leading_lineComment line.toInt
      simp only
      split
      · have split : ("# line " ++ Decimal.ofInt line.toInt ++ "\n" ++ text).toList =
            ("# line " ++ Decimal.ofInt line.toInt).toList ++ '\n' :: text.toList := by simp
        rw [split, Text.closing_append_newline, Text.leading_append_newline, silent]
        exact ⟨rfl, rfl⟩
      · exact ⟨rfl, rfl⟩
  exact ⟨by rw [(said _ _).1, (said _ _).1, same.closing],
    by rw [(said _ _).2, (said _ _).2, same.leading]⟩

theorem Form.render_related (facts : ModuleFacts) (form : Form) :
    FormContent.RelatedForm SameContent (form.render layout facts)
      (form.render layout' facts) := by
  obtain ⟨texts, warnings⟩ := form.content.render_related layout layout' facts form.line
  refine ⟨?_, warnings⟩
  simp only [Form.render]
  revert texts
  generalize (form.content.render layout facts form.line).text = text
  generalize (form.content.render layout' facts form.line).text = text'
  rintro (same | _)
  · exact .some (sameContent_commented layout layout' form.line same.sameLines.sameContent)
  · exact .none

namespace ModuleRendering

def below (separator body text : String) : String :=
  if body.isEmpty then text else body ++ separator ++ text

theorem below_said (layout : Layout) (body text : String) :
    closing (below layout.separator body text).toList =
        leading body.toList ++ closing text.toList ∧
      leading (below layout.separator body text).toList =
        leading body.toList ++ leading text.toList := by
  have empty : leading [] = [] := rfl
  unfold below Layout.separator
  split
  next none =>
    rw [String.isEmpty_iff.1 none]
    exact ⟨rfl, rfl⟩
  next =>
    have lines := Text.closing_append_newline
    have lines' := Text.leading_append_newline
    split
    · have blank : (body ++ "\n\n" ++ text).toList =
          body.toList ++ '\n' :: ([] ++ '\n' :: text.toList) := by simp
      rw [blank, lines, lines, lines', lines', empty, List.nil_append, List.nil_append]
      exact ⟨rfl, rfl⟩
    · have next : (body ++ "\n" ++ text).toList = body.toList ++ '\n' :: text.toList := by simp
      rw [next, lines, lines']
      exact ⟨rfl, rfl⟩

theorem sameContent_joinForms {texts texts' : List String}
    (same : Forall₂ (fun text text' => SameContent text.toList text'.toList) texts texts') :
    SameContent (joinForms layout.separator texts).toList
      (joinForms layout'.separator texts').toList := by
  have step : ∀ {body body' : String}, SameContent body.toList body'.toList →
      SameContent (texts.foldl (below layout.separator) body).toList
        (texts'.foldl (below layout'.separator) body').toList := by
    induction same with
    | nil => exact id
    | @cons text text' _ _ first _ ih =>
      intro body body' bodies
      apply ih
      have said := below_said layout body text
      have said' := below_said layout' body' text'
      exact ⟨by rw [said.1, said'.1, bodies.leading, first.closing],
        by rw [said.2, said'.2, bodies.leading, first.leading]⟩
  exact step ⟨rfl, rfl⟩

theorem content_wrap (layout : Layout) (name body : String) :
    content (wrap layout name body) =
      kept ((Text.pieces ("defmodule " ++ name ++ " do").toList).map Text.dropReturn) ++
        closing body.toList ++ ["end".toList] := by
  have last : kept (Text.lines "end\n".toList) = ["end".toList] := by decide
  have opened : ∀ rest : String, content ("defmodule " ++ name ++ " do\n" ++ rest) =
      kept ((Text.pieces ("defmodule " ++ name ++ " do").toList).map Text.dropReturn) ++
        content rest := by
    intro rest
    have split : ("defmodule " ++ name ++ " do\n" ++ rest).toList =
        ("defmodule " ++ name ++ " do").toList ++ '\n' :: rest.toList := by simp
    rw [content, split, Text.lines_append_newline, Text.kept_append]
    rfl
  unfold wrap
  split
  next empty =>
    have whole : "defmodule " ++ name ++ " do\nend\n" =
        "defmodule " ++ name ++ " do\n" ++ "end\n" := by simp [String.append_assoc]
    have silent : closing "".toList = [] := rfl
    rw [whole, opened, content, last, String.isEmpty_iff.1 empty, silent, List.append_nil]
  next some =>
    have nonempty : body.toList ≠ [] := by simpa using some
    have inner : (layout.indent body ++ "\nend\n").toList =
        Text.indented layout.width body.toList ++ '\n' :: "end\n".toList := by
      simp [Layout.toList_indent]
    have whole : "defmodule " ++ name ++ " do\n" ++ layout.indent body ++ "\nend\n" =
        "defmodule " ++ name ++ " do\n" ++ (layout.indent body ++ "\nend\n") :=
      String.append_assoc ..
    rw [whole, opened, content, inner, Text.lines_append_newline, Text.kept_append,
      Text.pieces_indented layout.width nonempty, Text.kept_map_indentLine, last,
      List.append_assoc]
    rfl

theorem sameTexts {forms : List Term} {left right : Term → FormRendering}
    (each : ∀ form ∈ forms, Option.Rel
      (fun text text' => SameContent text.toList text'.toList) (left form).text (right form).text) :
    Forall₂ (fun text text' => SameContent text.toList text'.toList)
      ((forms.map left).filterMap FormRendering.text)
      ((forms.map right).filterMap FormRendering.text) := by
  induction forms with
  | nil => exact .nil
  | cons form rest ih =>
    rw [List.forall_mem_cons] at each
    have later := ih each.2
    have first := each.1
    simp only [List.map_cons, List.filterMap_cons]
    revert first
    generalize (left form).text = text, (right form).text = text'
    rintro (same | _)
    · exact .cons same later
    · exact later

/-- What a rendering says whatever its layout: what is in its text, and its warnings. -/
def said (rendering : ModuleRendering) : List (List Char) × List Warning :=
  (content rendering.text, rendering.warnings)

theorem said_ofForms_eq (forms : List Term) :
    (ofForms layout forms).said = (ofForms layout' forms).said := by
  let facts := ModuleFacts.ofForms forms
  have each := fun form : Term => (Form.ofTerm form).render_related layout layout' facts
  have texts := sameContent_joinForms layout layout'
    (sameTexts fun form (_ : form ∈ forms) => (each form).text)
  have warnings : (forms.map fun form => (Form.ofTerm form).render layout facts).flatMap
        FormRendering.warnings =
      (forms.map fun form => (Form.ofTerm form).render layout' facts).flatMap
        FormRendering.warnings := by
    simp only [List.flatMap_map]
    exact List.flatMap_congr fun form _ => (each form).warnings
  refine Prod.ext ?_ warnings
  simp only [said, ofForms]
  rw [content_wrap, content_wrap, texts.closing]

/-- A layout decides on nothing but margins, empty lines and comments with line numbers. -/
theorem said_ofPayload_eq (payload : Term) :
    (ofPayload layout payload).map said = (ofPayload layout' payload).map said := by
  unfold ofPayload
  split
  next forms _ => exact congrArg Except.ok (said_ofForms_eq layout layout' forms)
  next => rfl

end ModuleRendering

end Legible
