import Legible.Problem
import Legible.Proofs.Expr.Reads

/-!
Which payloads have forms, and what is said of all the others.

`Holds` lists the three layouts and `Lacks` the five ways to miss them. Each payload is in one of
the two relations, and reading it says which.
-/

set_option autoImplicit false

namespace Legible

namespace Payload

/-- A payload in one of the three layouts, with the forms in it. The options next to the forms may
be anything. -/
inductive Holds (forms : List Term) : Term → Prop
  | bare : Holds forms (.list forms)
  | raw : Holds forms (.tuple [.atom "raw_abstract_v1", .list forms])
  | chunk {options : Term} :
      Holds forms (.tuple [.atom "debug_info_v1", .atom "erl_abstract_code",
        .tuple [.list forms, options]])

/-- A payload without forms, and what is wrong with it. -/
inductive Lacks : PayloadError → Term → Prop
  | rawForms {found : Term} : found.list? = none →
      Lacks (.notForms rawLayout found) (.tuple [.atom rawLayout, found])
  | chunkForms {found options : Term} : found.list? = none →
      Lacks (.notForms chunkLayout found)
        (.tuple [.atom chunkLayout, .atom backend, .tuple [found, options]])
  | code {data : Term} : (∀ found options, data ≠ .tuple [found, options]) →
      Lacks (.noCode data) (.tuple [.atom chunkLayout, .atom backend, data])
  | backend {writer data : Term} : writer.atom? ≠ some backend →
      Lacks (.foreignBackend writer) (.tuple [.atom chunkLayout, writer, data])
  | layout {t : Term} : t.list? = none → (∀ data, t ≠ .tuple [.atom rawLayout, data]) →
      (∀ writer data, t ≠ .tuple [.atom chunkLayout, writer, data]) →
      Lacks (.unrecognised t) t

theorem formsOf_cases (layout : String) (found : Term) :
    (∃ members, found = .list members ∧ formsOf layout found = .ok members) ∨
      found.list? = none ∧ formsOf layout found = .error (.notForms layout found) := by
  cases found with
  | list members => exact .inl ⟨members, rfl, rfl⟩
  | tuple | atom | number | string => exact .inr ⟨rfl, rfl⟩

theorem Holds.forms_eq {t : Term} {members : List Term} (holds : Holds members t) :
    forms t = .ok members := by
  cases holds <;> rfl

private theorem outcome_chunk (writer data : Term) :
    let t := Term.tuple [.atom chunkLayout, writer, data]
    (∃ members, Holds members t) ∨ ∃ error, forms t = .error error ∧ Lacks error t := by
  intro t
  by_cases ours : writer.atom? = some backend
  · cases writer with
    | atom name =>
      obtain rfl : name = backend := Option.some_inj.1 ours
      cases data with
      | tuple elements =>
        rcases elements with _ | ⟨found, _ | ⟨options, _ | ⟨more, rest⟩⟩⟩
        · exact .inr ⟨_, rfl, .code fun _ _ same => by cases same⟩
        · exact .inr ⟨_, rfl, .code fun _ _ same => by cases same⟩
        · rcases formsOf_cases chunkLayout found with ⟨members, rfl, -⟩ | ⟨noList, read⟩
          · exact .inl ⟨members, .chunk⟩
          · exact .inr ⟨_, read, .chunkForms noList⟩
        · exact .inr ⟨_, rfl, .code fun _ _ same => by cases same⟩
      | list | atom | number | string =>
        exact .inr ⟨_, rfl, .code fun _ _ same => by cases same⟩
    | tuple | list | number | string => cases ours
  · have foreign : forms t = .error (.foreignBackend writer) := by
      simp only [t, forms, if_pos, if_neg ours]
    exact .inr ⟨_, foreign, .backend ours⟩

private theorem outcome_raw (data : Term) :
    let t := Term.tuple [.atom rawLayout, data]
    (∃ members, Holds members t) ∨ ∃ error, forms t = .error error ∧ Lacks error t := by
  intro t
  have read : forms t = formsOf rawLayout data := rfl
  rcases formsOf_cases rawLayout data with ⟨members, rfl, -⟩ | ⟨noList, failed⟩
  · exact .inl ⟨members, .raw⟩
  · exact .inr ⟨_, read.trans failed, .rawForms noList⟩

theorem outcome (t : Term) :
    (∃ members, Holds members t) ∨ ∃ error, forms t = .error error ∧ Lacks error t := by
  by_cases raw : ∃ data, t = .tuple [.atom rawLayout, data]
  · obtain ⟨data, rfl⟩ := raw
    exact outcome_raw data
  by_cases chunk : ∃ writer data, t = .tuple [.atom chunkLayout, writer, data]
  · obtain ⟨writer, data, rfl⟩ := chunk
    exact outcome_chunk writer data
  cases list : t.list? with
  | some members =>
    obtain rfl := Term.list?_eq_some_iff.1 list
    exact .inl ⟨members, .bare⟩
  | none =>
    have noRaw : ∀ data, t ≠ .tuple [.atom rawLayout, data] := fun data same => raw ⟨data, same⟩
    have noChunk : ∀ writer data, t ≠ .tuple [.atom chunkLayout, writer, data] :=
      fun writer data same => chunk ⟨writer, data, same⟩
    refine .inr ⟨.unrecognised t, ?_, .layout list noRaw noChunk⟩
    unfold forms
    split
    next => cases list
    next tag data =>
      rw [if_neg]
      rintro rfl
      exact noRaw data rfl
    next tag writer data =>
      rw [if_neg]
      rintro rfl
      exact noChunk writer data rfl
    next => rfl

theorem forms_eq_ok_iff {t : Term} {members : List Term} :
    forms t = .ok members ↔ Holds members t := by
  constructor
  · intro read
    rcases outcome t with ⟨others, holds⟩ | ⟨error, failed, -⟩
    · obtain rfl : others = members := Except.ok.inj (holds.forms_eq.symm.trans read)
      exact holds
    · cases read.symm.trans failed
  · exact Holds.forms_eq

end Payload

namespace ModuleRendering

theorem ofPayload_of_holds (layout : Layout) {t : Term} {forms : List Term}
    (holds : Payload.Holds forms t) : ofPayload layout t = .ok (ofForms layout forms) := by
  simp only [ofPayload, holds.forms_eq]

theorem ofPayload_of_error (layout : Layout) {t : Term} {error : PayloadError}
    (failed : Payload.forms t = .error error) :
    ofPayload layout t = .error (.payload error) := by
  simp only [ofPayload, failed]

/-- A payload has forms iff it is in one of the three layouts, and its rendering is that of its
forms, whatever layout they are in. Any other payload is reported with what was found, and has no
rendering. -/
theorem ofPayload_three_layouts :
    (∀ (t : Term) (forms : List Term), Payload.forms t = .ok forms ↔ Payload.Holds forms t) ∧
      (∀ t : Term, (∀ forms, ¬ Payload.Holds forms t) → ∃ error, Payload.forms t = .error error ∧
        Payload.Lacks error t ∧ (Problem.payload error).label = "Unrecognised Debug Info" ∧
        (Problem.payload error).found?.isSome ∧
        ∀ layout : Layout, ofPayload layout t = .error (.payload error)) ∧
      ∀ (layout : Layout) (forms : List Term) (options : Term),
        let raw := Term.tuple [.atom "raw_abstract_v1", .list forms]
        let chunk := Term.tuple [.atom "debug_info_v1", .atom "erl_abstract_code",
          .tuple [.list forms, options]]
        ofPayload layout (.list forms) = .ok (ofForms layout forms) ∧
          ofPayload layout raw = .ok (ofForms layout forms) ∧
          ofPayload layout chunk = .ok (ofForms layout forms) := by
  refine ⟨fun t forms => Payload.forms_eq_ok_iff, fun t without => ?_, ?_⟩
  · obtain ⟨error, failed, lacks⟩ := (Payload.outcome t).resolve_left fun ⟨forms, holds⟩ =>
      without forms holds
    exact ⟨error, failed, lacks, rfl, rfl, fun layout => ofPayload_of_error layout failed⟩
  · intro layout forms options
    exact ⟨ofPayload_of_holds layout .bare, ofPayload_of_holds layout .raw,
      ofPayload_of_holds layout .chunk⟩

/-- A chunk that another backend wrote. -/
theorem ofPayload_three_layouts_foreign :
    let t := Term.tuple [.atom "debug_info_v1", .atom "elixir_erl", .atom "none"]
    let error := PayloadError.foreignBackend (.atom "elixir_erl")
    (∀ forms, ¬ Payload.Holds forms t) ∧ Payload.Lacks error t ∧
      (Problem.payload error).found? = some "elixir_erl" ∧
      ∀ layout : Layout, ofPayload layout t = .error (.payload error) := by
  intro t error
  have without : ∀ forms, ¬ Payload.Holds forms t := by
    intro forms holds
    cases holds.forms_eq
  obtain ⟨other, failed, lacks, -, -, each⟩ := ofPayload_three_layouts.2.1 t without
  obtain rfl : error = other := Except.error.inj failed
  exact ⟨without, lacks, rfl, each⟩

end ModuleRendering

end Legible
