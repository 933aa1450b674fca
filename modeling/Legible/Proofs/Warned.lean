import Legible.Proofs.Declared
import Legible.Proofs.Expr.Related
import Legible.Proofs.Term.Visits

/-!
The warnings of a rendering, which the term alone decides.

A rendering warns of the unsupported terms that the walk through the term meets, in the order in
which it meets them. It does so in every scope, position and layout, and also where the text or the
declared names of a part are not used.
-/

set_option autoImplicit false

namespace Legible

def Warning.ofExpression (t : Term) : Warning where
  cause := .ofExpression t
  line := t.line?

/-- Warnings about the unsupported terms that are met in some parts, one after the other. -/
def Warns (warnings : List Warning) (parts : List Term) : Prop :=
  warnings = (parts.flatMap Term.unsupported).map Warning.ofExpression

namespace Warns

theorem nil : Warns [] [] :=
  rfl

theorem append {first second : List Warning} {ts us : List Term} (before : Warns first ts)
    (after : Warns second us) : Warns (first ++ second) (ts ++ us) := by
  unfold Warns at before after ⊢
  rw [List.flatMap_append, List.map_append, before, after]

theorem cons {first second : List Warning} {t : Term} {us : List Term} (before : Warns first [t])
    (after : Warns second us) : Warns (first ++ second) (t :: us) :=
  append before after

theorem of_construct {warnings : List Warning} {construct : Construct} {a : Term}
    {payload : List Term} (filled : payload.length = construct.payload.length)
    (isExpression : construct.isExpression)
    (parts : Warns warnings (construct.term a payload).visits) :
    Warns warnings [construct.term a payload] := by
  have expression : (construct.term a payload).isExpression := by
    simp [Term.isExpression, Term.construct?_term construct a payload filled, isExpression]
  unfold Warns at parts ⊢
  rw [List.flatMap_singleton, Term.unsupported_of_isExpression expression, parts]

theorem of_unsupported {t : Term}
    (foreign : ∀ c, t.construct? = some c → c.isExpression = false) :
    Warns [.ofExpression t] [t] := by
  unfold Warns
  rw [List.flatMap_singleton, Term.unsupported_of_not_isExpression
    (Term.not_isExpression_of_foreign foreign)]
  rfl

theorem of_malformed {t : Term} {what : Placeholder} (malformed : t.Malformed what) :
    Warns [] [t] := by
  have noVisits : Warns [] t.visits := by
    rw [malformed.visits_eq]
    exact nil
  cases malformed with
  | _ => exact of_construct rfl rfl noVisits

end Warns

section
variable {layout : Layout}

/-- Rendering what a term reads as warns of its unsupported terms in every position and scope. -/
def Term.WarnsUnsupported (layout : Layout) (t : Term) : Prop :=
  ∀ (position : Position) (scope : Scope),
    Warns ((Expr.ofTerm t).render layout position scope).warnings [t]

theorem renderAll_warns {terms : List Term} (each : ∀ t ∈ terms, t.WarnsUnsupported layout)
    (position : Position) (scope : Scope) :
    Warns (Expr.renderAll layout (terms.map Expr.ofTerm) position scope).warnings terms := by
  induction terms generalizing scope with
  | nil => exact .nil
  | cons t rest ih =>
    rw [List.forall_mem_cons] at each
    exact (each.1 position scope).cons (ih each.2 _)

theorem renderEntry_warns {t : Term} (self : t.WarnsUnsupported layout)
    (each : ∀ u : Term, u.Inside t → u.WarnsUnsupported layout) (position : Position)
    (scope : Scope) :
    Warns (Expr.renderEntry layout (Expr.entryOfTerm t) position scope).warnings t.entryParts := by
  have entry := Expr.readsEntry t
  generalize Expr.entryOfTerm t = read at entry
  cases entry with
  | @assoc a key value | @exact a key value =>
    have first := each key (.of_payload (by simp)) position scope
    exact first.cons (each value (.of_payload (by simp)) position _)
  | single noAssoc noExact =>
    rw [Term.entryParts_of_single noAssoc noExact]
    exact self position scope

theorem renderEntries_warns {entries : List Term}
    (each : ∀ t ∈ entries,
      t.WarnsUnsupported layout ∧ ∀ u : Term, u.Inside t → u.WarnsUnsupported layout)
    (position : Position) (scope : Scope) :
    Warns (Expr.renderEntries layout (entries.map Expr.entryOfTerm) position scope).warnings
      (entries.flatMap Term.entryParts) := by
  induction entries generalizing scope with
  | nil => exact .nil
  | cons t rest ih =>
    rw [List.forall_mem_cons] at each
    obtain ⟨⟨self, inside⟩, later⟩ := each
    exact (renderEntry_warns self inside position scope).append (ih later _)

theorem noEntries_warns {t : Term} (noList : t.list? = none) :
    Warns [] (t.members.flatMap Term.entryParts) := by
  rw [Term.members_eq_nil noList]
  exact .nil

theorem renderMembers_warns {t : Term}
    (each : ∀ u : Term, u.Inside t → u.WarnsUnsupported layout) {x : Term} (inside : x.Inside t)
    (position : Position) (scope : Scope) :
    Warns (Expr.renderAll layout (x.members.map Expr.ofTerm) position scope).warnings
      x.members :=
  renderAll_warns (fun u member => each u (.of_mem_members member inside)) position scope

theorem renderTests_warns {tests : List Term} (each : ∀ t ∈ tests, t.WarnsUnsupported layout)
    (position : Position) (scope : Scope) :
    Warns ((Expr.renderTests layout (tests.map Expr.ofTerm) position scope).flatMap
      Rendering.warnings) tests := by
  induction tests with
  | nil => exact .nil
  | cons t rest ih =>
    rw [List.forall_mem_cons] at each
    exact (each.1 position scope).cons (ih each.2)

theorem renderGuards_warns {t : Term} (each : ∀ u : Term, u.Inside t → u.WarnsUnsupported layout)
    {guards : List Term} (inside : ∀ guard ∈ guards, guard.Inside t) (position : Position)
    (scope : Scope) :
    Warns (Alternative.warningsOf
      (Expr.renderGuards layout (guards.map Expr.testsOfTerm) position scope))
      (guards.flatMap Term.tests) := by
  induction guards with
  | nil => exact .nil
  | cons guard rest ih =>
    rw [List.forall_mem_cons] at inside
    have tests : ∀ u ∈ guard.tests, u.WarnsUnsupported layout := by
      intro u member
      exact each u (.of_mem_tests member inside.1)
    rw [List.map_cons, Term.testsOfTerm_eq_map]
    exact (renderTests_warns tests position scope).append (ih inside.2)

theorem renderClause_warns {t : Term} (each : ∀ u : Term, u.Inside t → u.WarnsUnsupported layout)
    (kind : ClauseKind) (outer : Scope) {parts : ClauseRendering}
    (rendered : Expr.renderClause layout kind (Expr.clauseOfTerm t) outer = some parts) :
    Warns parts.warnings t.clauseVisits := by
  have clause := Expr.readsClause t
  generalize Expr.clauseOfTerm t = read at clause rendered
  cases clause with
  | @clause a patterns guards body =>
    cases rendered
    have alternatives : ∀ guard ∈ guards.members,
        guard.Inside (Construct.clause.term a [patterns, guards, body]) :=
      fun guard member => .of_mem_members member (.of_payload (by simp))
    have head := renderMembers_warns each (x := patterns) (.of_payload (by simp)) .pattern
    have guard := renderGuards_warns each alternatives .expression
    have rest := renderMembers_warns each (x := body) (.of_payload (by simp)) .expression
    exact ((head _).append (guard _)).append (rest _)
  | malformed => cases rendered

theorem renderArms_warns {clauses : List Term}
    (each : ∀ t ∈ clauses, ∀ u : Term, u.Inside t → u.WarnsUnsupported layout) (kind : ClauseKind)
    (outer : Scope) :
    Warns (Expr.renderArms layout kind (clauses.map Expr.clauseOfTerm) outer).warnings
      (clauses.flatMap Term.clauseVisits) := by
  induction clauses with
  | nil => exact .nil
  | cons t rest ih =>
    rw [List.forall_mem_cons] at each
    rw [List.map_cons, Expr.renderArms, List.flatMap_cons]
    cases rendered : Expr.renderClause layout kind (Expr.clauseOfTerm t) outer with
    | some => exact (renderClause_warns each.1 kind outer rendered).append (ih each.2)
    | none =>
      rw [Term.clauseVisits_eq_nil (renderClause_eq_none_iff.1 rendered)]
      exact Warns.nil.append (ih each.2)

theorem renderConditions_warns {clauses : List Term}
    (each : ∀ t ∈ clauses, ∀ u : Term, u.Inside t → u.WarnsUnsupported layout)
    (position : Position) (scope : Scope) :
    Warns (Expr.renderConditions layout (clauses.map Expr.clauseOfTerm) position scope).warnings
      (clauses.flatMap Term.conditionVisits) := by
  induction clauses with
  | nil => exact .nil
  | cons t rest ih =>
    rw [List.forall_mem_cons] at each
    refine Warns.append ?_ (ih each.2)
    have clause := Expr.readsClause t
    generalize Expr.clauseOfTerm t = read at clause
    cases clause with
    | @clause a patterns guards body =>
      have alternatives : ∀ guard ∈ guards.members,
          guard.Inside (Construct.clause.term a [patterns, guards, body]) :=
        fun guard member => .of_mem_members member (.of_payload (by simp))
      have guard := renderGuards_warns each.1 alternatives position scope
      exact guard.append (renderMembers_warns each.1 (.of_payload (by simp)) position scope)
    | malformed noClause =>
      rw [Term.conditionVisits_eq_nil noClause]
      exact .nil

/-- Atoms and numbers in a capture are written as they are, so nothing is unsupported there. -/
theorem capturePart_warns {t : Term} (self : t.WarnsUnsupported layout) (position : Position)
    (scope : Scope) :
    Warns ((Expr.capturePart t (Expr.ofTerm t)).render layout position scope).warnings
      t.capturePartVisits := by
  cases t with
  | atom | number => exact .nil
  | tuple | list | string => exact self position scope

theorem warnsUnsupported (layout : Layout) (t : Term) : t.WarnsUnsupported layout := by
  induction t using Term.inside_induction with
  | _ t ih =>
    intro position scope
    have read := Expr.reads t
    generalize Expr.ofTerm t = e at read
    have each : ∀ list : List Term, (Term.list list).Inside t → ∀ u ∈ list,
        u.WarnsUnsupported layout := by
      intro list inside u member
      exact ih u (inside.of_member member)
    -- Entries and clauses are no expressions, so the hypothesis is needed for what is inside them.
    have inList : ∀ list : List Term, (Term.list list).Inside t → ∀ u ∈ list,
        ∀ v : Term, v.Inside u → v.WarnsUnsupported layout := by
      intro list inside u member v inU
      exact ih v (inU.trans (inside.of_member member))
    have entries : ∀ list : List Term, (Term.list list).Inside t → ∀ u ∈ list,
        u.WarnsUnsupported layout ∧ ∀ v : Term, v.Inside u → v.WarnsUnsupported layout := by
      intro list inside u member
      exact ⟨each list inside u member, inList list inside u member⟩
    cases read with
    | unsupported foreign => exact .of_unsupported foreign
    | malformed malformed => exact .of_malformed malformed
    | «variable» =>
      refine .of_construct rfl rfl ?_
      exact warnings_ofVariable _ scope
    | emptyList | atom | integer | float | char | string | localCapture =>
      exact .of_construct rfl rfl .nil
    | @cons a head tail =>
      refine .of_construct rfl rfl ?_
      rw [Expr.render_cons]
      have first := ih head (.of_payload (by simp)) position scope
      exact first.cons (ih tail (.of_payload (by simp)) position _)
    | @tuple a list | @block a list =>
      refine .of_construct rfl rfl ?_
      exact renderAll_warns (each list (.of_payload (by simp))) position scope
    | @map a list =>
      refine .of_construct rfl rfl ?_
      exact renderEntries_warns (entries list (.of_payload (by simp))) position scope
    | @mapHole a x noList =>
      exact .of_construct rfl rfl (noEntries_warns noList)
    | @mapUpdate a source list =>
      refine .of_construct rfl rfl ?_
      have first := ih source (.of_payload (by simp)) position scope
      exact first.cons (renderEntries_warns (entries list (.of_payload (by simp))) position _)
    | @mapUpdateHole a source x noList =>
      refine .of_construct rfl rfl ?_
      have first := ih source (.of_payload (by simp)) position scope
      exact first.cons (noEntries_warns noList)
    | @matching a pattern value =>
      refine .of_construct rfl rfl ?_
      have right := ih value (.of_payload (by simp)) position scope
      exact right.cons (ih pattern (.of_payload (by simp)) .pattern _)
    | @binaryOp a operator left right =>
      refine .of_construct rfl rfl ?_
      have first := ih left (.of_payload (by simp)) position scope
      exact first.cons (ih right (.of_payload (by simp)) position _)
    | @unaryOp a operator operand =>
      refine .of_construct rfl rfl ?_
      exact ih operand (.of_payload (by simp)) position scope
    | @localCall a function name arguments named =>
      refine .of_construct rfl rfl ?_
      have inner := renderAll_warns (each arguments (.of_payload (by simp))) position scope
      change Warns _ (function.calleeVisits ++ arguments)
      rw [Term.calleeVisits_of_name? named]
      exact inner
    | @remoteCall a b module function moduleName name arguments moduleNamed named =>
      refine .of_construct rfl rfl ?_
      have inner := renderAll_warns (each arguments (.of_payload (by simp))) position scope
      change Warns _ ((Construct.remote.term b [module, function]).calleeVisits ++ arguments)
      rw [Term.calleeVisits_of_names moduleNamed named]
      exact inner
    | @dynamicCall a b module function arguments nameless =>
      refine .of_construct rfl rfl ?_
      have callee : (Construct.remote.term b [module, function]).Inside (Construct.call.term a
        [Construct.remote.term b [module, function], .list arguments]) := .of_payload (by simp)
      have first := ih module ((Term.Inside.of_payload (by simp)).trans callee) position scope
      have second := ih function ((Term.Inside.of_payload (by simp)).trans callee) position
      have inner := renderAll_warns (each arguments (.of_payload (by simp))) position
      -- The pair itself is no expression; its two parts are visited in its place.
      change Warns _ ((Construct.remote.term b [module, function]).calleeVisits ++ arguments)
      rw [Term.calleeVisits_of_remote nameless]
      exact (first.cons (second _)).append (inner _)
    | @valueCall a function arguments nameless notRemote =>
      refine .of_construct rfl rfl ?_
      have first := ih function (.of_payload (by simp)) position scope
      have inner := renderAll_warns (each arguments (.of_payload (by simp))) position
      change Warns _ (function.calleeVisits ++ arguments)
      rw [Term.calleeVisits_of_nameless nameless notRemote]
      exact first.append (inner _)
    | @closure a clauses =>
      refine .of_construct rfl rfl ?_
      have list : (Term.list clauses).Inside (.tuple [.atom "clauses", .list clauses]) :=
        .of_tagged _ (by simp)
      exact renderArms_warns (inList clauses (list.trans (.of_payload (by simp)))) .closure scope
    | @remoteCapture a module function arity moduleName name count moduleNamed named counted =>
      refine .of_construct rfl rfl ?_
      change Warns _ (Term.captureVisits module function arity)
      rw [Term.captureVisits_of_known moduleNamed named counted]
      exact .nil
    | @dynamicCapture a module function arity unknown =>
      refine .of_construct rfl rfl ?_
      change Warns _ (Term.captureVisits module function arity)
      rw [Term.captureVisits_of_unknown unknown]
      have part : ∀ u ∈ [module, function, arity],
          Warns ((Expr.capturePart u (Expr.ofTerm u)).render layout position scope).warnings
            u.capturePartVisits := by
        intro u inParts
        have captured := Term.Inside.of_tagged (.atom "function") inParts
        exact capturePart_warns (ih u (captured.trans (.of_payload (by simp)))) position scope
      exact ((part module (by simp)).append (part function (by simp))).append
        (part arity (by simp))
    | @caseOf a value clauses =>
      refine .of_construct rfl rfl ?_
      have first := ih value (.of_payload (by simp)) position scope
      exact first.cons (renderArms_warns (inList clauses (.of_payload (by simp))) .branch _)
    | @ifOf a clauses =>
      refine .of_construct rfl rfl ?_
      exact renderConditions_warns (inList clauses (.of_payload (by simp))) position scope
    | @receive a clauses =>
      refine .of_construct rfl rfl ?_
      exact renderArms_warns (inList clauses (.of_payload (by simp))) .branch scope
    | @receiveAfter a timeout clauses after =>
      refine .of_construct rfl rfl ?_
      have arms := renderArms_warns (inList clauses (.of_payload (by simp))) .branch scope
      have time := ih timeout (.of_payload (by simp)) position scope
      have body := renderAll_warns (each after (.of_payload (by simp))) position
      -- A rendering puts the timeout with the clauses, the walk with what comes after.
      change Warns _ (clauses.flatMap Term.clauseVisits ++ timeout :: after)
      rw [List.append_cons]
      exact (arms.append time).append (body _)

end

/-- A term has a form of its own if and only if it is a construct that is read as an expression. -/
theorem isSupported_ofTerm (t : Term) : (Expr.ofTerm t).isSupported = t.isExpression := by
  have read := Expr.reads t
  generalize Expr.ofTerm t = e at read
  cases read with
  | unsupported foreign =>
    rw [Bool.eq_false_iff.2 (Term.not_isExpression_of_foreign foreign)]
    rfl
  | malformed malformed =>
    cases malformed with
    | _ => rfl
  | @cons a head tail => cases Expr.ofTerm tail with | _ => rfl
  | _ => rfl

/-- The warnings of a rendering do not hang on scope, position and layout. There is one for each
place where the walk meets a term without a form of its own, in the order of the walk. -/
theorem warnings_render_eq (t : Term) :
    (∀ (layout : Layout) (position : Position) (scope : Scope),
      ((Expr.ofTerm t).render layout position scope).warnings =
        t.unsupported.map Warning.ofExpression) ∧
    (∀ u : Term, u ∈ t.unsupported ↔ u.Reached t ∧ (Expr.ofTerm u).isSupported = false) ∧
    List.Subperm t.unsupported t.subterms := by
  refine ⟨fun layout position scope => ?_, fun u => ?_, t.unsupported_subperm_subterms⟩
  · simpa [Warns] using warnsUnsupported layout t position scope
  · rw [isSupported_ofTerm, Term.mem_unsupported_iff]

end Legible
