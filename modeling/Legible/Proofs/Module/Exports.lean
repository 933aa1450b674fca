import Legible.Module.Render
import Legible.Proofs.Module.Reads

/-!
Which functions a module exports, and what their definitions show of it.

What a form adds to the exports does not depend on the forms before it, so their order makes no
difference. In the definitions of a function nothing but the keyword tells whether it is exported.
-/

set_option autoImplicit false

namespace Legible

namespace Term

/-- A form that exports the function of a name and an arity: its export list holds the function, or
it is a compiler option, alone or in a list, that exports every function. -/
inductive Exports (name : String) (arity : Int64) : Term → Prop
  | listed {a : Term} {members : List Term} :
      .tuple [.atom name, .number (.integer arity)] ∈ members →
      Exports name arity (Construct.attribute.term a [.atom "export", .list members])
  | option {a : Term} :
      Exports name arity (Construct.attribute.term a [.atom "compile", .atom "export_all"])
  | options {a : Term} {options : List Term} : .atom "export_all" ∈ options →
      Exports name arity (Construct.attribute.term a [.atom "compile", .list options])

end Term

namespace ModuleFacts

variable {name : String} {arity : Int64}

theorem export?_eq_some_iff {t : Term} :
    export? t = some (name, arity) ↔ t = .tuple [.atom name, .number (.integer arity)] := by
  constructor
  · intro found
    unfold export? at found
    split at found
    · cases found
      rfl
    · cases found
  · rintro rfl
    rfl

theorem mem_exportsOf_iff {value : Term} : (name, arity) ∈ exportsOf value ↔
    ∃ members, value = .list members ∧
      .tuple [.atom name, .number (.integer arity)] ∈ members := by
  cases value with
  | list members => simp [exportsOf, Term.list?, export?_eq_some_iff]
  | tuple | atom | number | string => simp [exportsOf, Term.list?]

theorem isExportAll_iff {options : Term} : isExportAll options ↔
    options = .atom "export_all" ∨
      ∃ members, options = .list members ∧ .atom "export_all" ∈ members := by
  have named : ∀ t : Term, t.atom? = some "export_all" ↔ t = .atom "export_all" := by
    intro t
    cases t <;> simp [Term.atom?]
  cases options with
  | list members => simp [isExportAll, named]
  | tuple | atom | number | string => simp [isExportAll, named]

theorem isExported_iff {facts : ModuleFacts} :
    facts.isExported name arity ↔ facts.exportsAll ∨ (name, arity) ∈ facts.exports := by
  simp [isExported]

theorem exports_iff {form : Term} : form.Exports name arity ↔
    (∃ value, form.attribute? = some ("export", value) ∧ (name, arity) ∈ exportsOf value) ∨
      ∃ value, form.attribute? = some ("compile", value) ∧ isExportAll value := by
  simp only [Term.attribute?_eq_some_iff, mem_exportsOf_iff, isExportAll_iff]
  constructor
  · rintro (⟨member⟩ | _ | ⟨member⟩)
    · exact .inl ⟨_, ⟨_, rfl⟩, _, rfl, member⟩
    · exact .inr ⟨_, ⟨_, rfl⟩, .inl rfl⟩
    · exact .inr ⟨_, ⟨_, rfl⟩, .inr ⟨_, rfl, member⟩⟩
  · rintro (⟨_, ⟨_, rfl⟩, _, rfl, member⟩ | ⟨_, ⟨_, rfl⟩, rfl | ⟨_, rfl, member⟩⟩)
    · exact .listed member
    · exact .option
    · exact .options member

/-- One more form adds what it exports itself. -/
theorem isExported_addForm (facts : ModuleFacts) (form : Term) :
    (facts.addForm form).isExported name arity ↔
      facts.isExported name arity ∨ form.Exports name arity := by
  rw [exports_iff]
  unfold addForm
  cases form.attribute? with
  | none => simp
  | some named =>
    obtain ⟨label, value⟩ := named
    simp only [Option.some.injEq, Prod.mk.injEq]
    split
    next isModule => simp [isModule, isExported]
    split
    next isExport => simp [isExport, isExported_iff, or_assoc]
    split
    next isCompile => simp [isCompile, isExported_iff, or_right_comm]
    next noModule noExport noCompile => simp [noExport, noCompile]

theorem isExported_foldl (facts : ModuleFacts) (forms : List Term) :
    (forms.foldl addForm facts).isExported name arity ↔
      facts.isExported name arity ∨ ∃ form ∈ forms, form.Exports name arity := by
  induction forms generalizing facts with
  | nil => simp
  | cons form rest ih => simp [ih, isExported_addForm, or_assoc]

theorem isExported_ofForms_iff (forms : List Term) :
    (ofForms forms).isExported name arity ↔ ∃ form ∈ forms, form.Exports name arity := by
  have none : empty.isExported name arity = false := rfl
  simp [ofForms, isExported_foldl, none]

theorem isExported_eq_of_perm {forms forms' : List Term} (reordered : forms.Perm forms') :
    (ofForms forms).isExported name arity = (ofForms forms').isExported name arity := by
  rw [Bool.eq_iff_iff, isExported_ofForms_iff, isExported_ofForms_iff]
  simp only [reordered.mem_iff]

end ModuleFacts

namespace FormContent

theorem keyword_prefix_definition (layout : Layout) (keyword name : String)
    (parts : ClauseRendering) :
    (keyword ++ " ").toList <+: (definition layout keyword name parts).toList := by
  unfold definition
  cases parts.guard with
  | none => simp
  | some guard => simp

/-- A definition starts with one of the two keywords, and not with the other one. -/
theorem definition_starts (layout : Layout) (exported : Bool) (name : String)
    (parts : ClauseRendering) :
    let text := (definition layout (if exported then "def" else "defp") name parts).toList
    ("def ".toList <+: text ↔ exported = true) ∧ ("defp ".toList <+: text ↔ exported = false) := by
  intro text
  have starts := keyword_prefix_definition layout (if exported then "def" else "defp") name parts
  -- Of two starts of one text the shorter one starts the longer one.
  have apart : ¬("def ".toList <+: text ∧ "defp ".toList <+: text) := by
    rintro ⟨exposed, hidden⟩
    have nested := List.prefix_of_prefix_length_le exposed hidden (by decide)
    exact absurd nested (by decide)
  cases exported with
  | true =>
    have exposed : "def ".toList <+: text := starts
    exact ⟨iff_of_true exposed rfl,
      iff_of_false (fun hidden => apart ⟨exposed, hidden⟩) (by decide)⟩
  | false =>
    have hidden : "defp ".toList <+: text := starts
    exact ⟨iff_of_false (fun exposed => apart ⟨exposed, hidden⟩) (by decide),
      iff_of_true hidden rfl⟩

def definitionOf (layout : Layout) (facts : ModuleFacts) (name : String) (arity : Int64)
    (clause : Term) : String :=
  (renderDefinition layout (keyword facts (some name) (some arity)) (Spelling.ofFunction name)
    (Expr.clauseOfTerm clause)).1

theorem definitionOf_clause (layout : Layout) (facts : ModuleFacts) (name : String) (arity : Int64)
    {clause : Term} (isClause : Construct.clause.accepts clause) :
    ∃ parts, definitionOf layout facts name arity clause =
      definition layout (if facts.isExported name arity then "def" else "defp")
        (Spelling.ofFunction name) parts := by
  obtain ⟨a, payload, rfl, filled⟩ :=
    Term.eq_term_of_construct? (Term.construct?_eq_some_iff.2 isClause)
  match payload, filled with
  | [patterns, guards, body], _ =>
    rw [definitionOf, Expr.clauseOfTerm_clause]
    exact ⟨_, rfl⟩

/-- Of the facts about a module, a function shows only whether it is exported. -/
theorem render_function_congr (layout : Layout) {facts facts' : ModuleFacts} {name : String}
    {arity : Int64} (agree : facts.isExported name arity = facts'.isExported name arity)
    (line : Option Int64) (clauses : List Clause) :
    (function (some name) (some arity) clauses).render layout facts line =
      (function (some name) (some arity) clauses).render layout facts' line := by
  have keywords : keyword facts (some name) (some arity) =
      keyword facts' (some name) (some arity) := by
    simp only [keyword, agree]
  simp only [render, keywords]

end FormContent

namespace Form

variable (layout : Layout) (name : String) (arity : Int64)

theorem text_render_function (facts : ModuleFacts) (a : Term) (clauses : List Term) :
    let form := ofTerm
      (Construct.function.term a [.atom name, .number (.integer arity), .list clauses])
    (form.render layout facts).text = some (commented layout form.line
      ("\n\n".intercalate (clauses.map (FormContent.definitionOf layout facts name arity)))) := by
  intro form
  have content : form.content =
      .function (some name) (some arity) (clauses.map Expr.clauseOfTerm) :=
    FormContent.ofTerm_function a (.atom name) (.number (.integer arity)) clauses
  simp only [render, content, FormContent.render, List.map_map]
  rfl

theorem render_function_congr {facts facts' : ModuleFacts}
    (agree : facts.isExported name arity = facts'.isExported name arity) (a clauses : Term) :
    let form := ofTerm (Construct.function.term a [.atom name, .number (.integer arity), clauses])
    form.render layout facts = form.render layout facts' := by
  intro form
  have content : form.content.render layout facts form.line =
      form.content.render layout facts' form.line := by
    cases list : clauses.list? with
    | some members =>
      obtain rfl := Term.list?_eq_some_iff.1 list
      have read : form.content = _ := FormContent.ofTerm_function a (.atom name)
        (.number (.integer arity)) members
      rw [read]
      exact FormContent.render_function_congr layout agree form.line _
    | none =>
      have read : form.content = _ := FormContent.ofTerm_functionHole a (.atom name)
        (.number (.integer arity)) list
      rw [read]
      rfl
  simp only [render, content]

end Form

namespace ModuleFacts

/-- A function is exported iff some form says so, wherever that form stands. Each clause of the
function is then a public definition and else a private one, and nothing else in the text of the
function depends on the module. -/
theorem exports_decide_visibility (layout : Layout) (forms : List Term) (name : String)
    (arity : Int64) :
    let exported := (ofForms forms).isExported name arity
    (exported = true ↔ ∃ form ∈ forms, form.Exports name arity) ∧
      (∀ forms' : List Term, forms.Perm forms' →
        (ofForms forms').isExported name arity = exported) ∧
      (∀ (a : Term) (clauses : List Term),
        let form := Form.ofTerm
          (Construct.function.term a [.atom name, .number (.integer arity), .list clauses])
        let definitionOf := FormContent.definitionOf layout (ofForms forms) name arity
        (form.render layout (ofForms forms)).text = some (Form.commented layout form.line
          ("\n\n".intercalate (clauses.map definitionOf))) ∧
        ∀ clause ∈ clauses, Construct.clause.accepts clause →
          ("def ".toList <+: (definitionOf clause).toList ↔ exported = true) ∧
            ("defp ".toList <+: (definitionOf clause).toList ↔ exported = false)) ∧
      ∀ (facts facts' : ModuleFacts) (a clauses : Term),
        facts.isExported name arity = facts'.isExported name arity →
        let form := Form.ofTerm
          (Construct.function.term a [.atom name, .number (.integer arity), clauses])
        form.render layout facts = form.render layout facts' := by
  intro exported
  refine ⟨isExported_ofForms_iff forms, fun forms' reordered => ?_, fun a clauses => ⟨?_, ?_⟩, ?_⟩
  · exact (isExported_eq_of_perm reordered).symm
  · exact Form.text_render_function layout name arity (ofForms forms) a clauses
  · intro clause _ isClause
    obtain ⟨parts, written⟩ :=
      FormContent.definitionOf_clause layout (ofForms forms) name arity isClause
    simp only [written]
    exact FormContent.definition_starts layout exported (Spelling.ofFunction name) parts
  · intro facts facts' a clauses agree
    exact Form.render_function_congr layout name arity agree a clauses

/-- A function in front of the attribute that exports it, and the option that exports it as well. -/
theorem exports_decide_visibility_later :
    let clause := Construct.clause.term (.list []) [.list [], .list [], .list []]
    let function := Construct.function.term (.list [])
      [.atom "f", .number (.integer 0), .list [clause]]
    let listing := Construct.attribute.term (.list [])
      [.atom "export", .list [.tuple [.atom "f", .number (.integer 0)]]]
    let option := Construct.attribute.term (.list []) [.atom "compile", .atom "export_all"]
    let facts := ofForms [function, listing]
    let facts' := ofForms [option]
    [function, listing].Perm [listing, function] ∧ clause ∈ [clause] ∧
      Construct.clause.accepts clause ∧ facts.isExported "f" 0 = facts'.isExported "f" 0 ∧
      (ofForms [listing, function]).isExported "f" 0 = true ∧
      "def ".toList <+: (FormContent.definitionOf {} facts "f" 0 clause).toList ∧
      (Form.ofTerm function).render {} facts = (Form.ofTerm function).render {} facts' := by
  intro clause function listing option facts facts'
  obtain ⟨iff, reorder, each, congr⟩ := exports_decide_visibility {} [function, listing] "f" 0
  have exported : facts.isExported "f" 0 = true :=
    iff.2 ⟨listing, by simp, .listed (List.mem_singleton_self _)⟩
  have swapped : [function, listing].Perm [listing, function] := .swap ..
  have member : clause ∈ [clause] := List.mem_singleton_self clause
  have isClause : Construct.clause.accepts clause := by decide
  have agree : facts.isExported "f" 0 = facts'.isExported "f" 0 := by decide
  have definitions := (each (.list []) [clause]).2 clause member isClause
  exact ⟨swapped, member, isClause, agree, (reorder _ swapped).trans exported,
    definitions.1.2 exported, congr facts facts' (.list []) (.list [clause]) agree⟩

end ModuleFacts

end Legible
