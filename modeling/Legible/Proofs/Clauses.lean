import Legible.Proofs.Expr.Sequence
import Legible.Proofs.Module.Reads
import Legible.Module.Render

/-!
Clauses on their own.

A clause sees the names that are bound around its form and nothing of the clauses beside it. So a
form has the arms that its clauses have alone, in their order, and what it says around them does
not depend on any of them.
-/

set_option autoImplicit false

namespace Legible

namespace Scope

theorem withPinning_congr {scope scope' : Scope} (names : scope.names = scope'.names)
    (pinning : Bool) : scope.withPinning pinning = scope'.withPinning pinning :=
  congrArg (Scope.mk · pinning) names

theorem union_left_comm {first second : Scope} (alike : first.pinning = second.pinning)
    (rest : Scope) : first ∪ (second ∪ rest) = second ∪ (first ∪ rest) := by
  have names : first.names ∪ (second.names ∪ rest.names) =
      second.names ∪ (first.names ∪ rest.names) := by
    rw [← NameSet.union_assoc, NameSet.union_comm first.names, NameSet.union_assoc]
  exact (congrArg (Scope.mk · first.pinning) names).trans (congrArg (Scope.mk _) alike)

end Scope

namespace ClauseKind

variable {kind : ClauseKind} {outer outer' : Scope}

theorem patternScope_congr (alike : kind = .function ∨ outer.names = outer'.names) :
    kind.patternScope outer = kind.patternScope outer' := by
  cases kind with
  | function | closure => rfl
  | branch =>
    have names := alike.resolve_left (by decide)
    exact Scope.withPinning_congr names true

theorem bodyScope_congr (alike : kind = .function ∨ outer.names = outer'.names) (head : Scope) :
    kind.bodyScope outer head = kind.bodyScope outer' head := by
  cases kind with
  | function => rfl
  | closure | branch =>
    have names := alike.resolve_left (by decide)
    exact congrArg (· ∪ head) (Scope.withPinning_congr names false)

end ClauseKind

namespace Sequence

theorem declared_ofList_perm {renderings renderings' : List Rendering}
    (perm : renderings.Perm renderings') (free : ∀ r ∈ renderings, r.declared.pinning = false) :
    (ofList renderings).declared = (ofList renderings').declared := by
  induction perm with
  | nil => rfl
  | cons r _ ih =>
    have later := ih fun s member => free s (List.mem_cons_of_mem r member)
    exact congrArg (r.declared ∪ ·) later
  | swap r s rest =>
    have first := free s (by simp)
    have second := free r (by simp)
    -- A union pins if its first scope does, so the two can be swapped as both do not.
    exact Scope.union_left_comm (first.trans second.symm) _
  | trans before _ ih ih' =>
    rw [ih free, ih' fun r member => free r (before.mem_iff.2 member)]

end Sequence

namespace Expr

variable (layout : Layout)

/-- Of the outer scope, a clause sees the names alone, and the clause of a named function sees not
even these. -/
theorem renderClause_congr {kind : ClauseKind} {outer outer' : Scope}
    (alike : kind = .function ∨ outer.names = outer'.names) (clause : Clause) :
    renderClause layout kind clause outer = renderClause layout kind clause outer' := by
  cases clause with
  | clause patterns guards body =>
    simp only [renderClause, ClauseKind.patternScope_congr alike, ClauseKind.bodyScope_congr alike]
  | malformed => rfl

def renderArm (kind : ClauseKind) (outer : Scope) (clause : Clause) : Rendering :=
  match renderClause layout kind clause outer with
  | some parts =>
    { text := layout.arm parts.guardedHead parts.body
      declared := parts.declared
      warnings := parts.warnings }
  | none => .plain Placeholder.clauses.text

theorem ofList_renderArm (kind : ClauseKind) (outer : Scope) (clauses : List Term) :
    Sequence.ofList (clauses.map fun clause => renderArm layout kind outer (clauseOfTerm clause)) =
      renderArms layout kind (clauses.map clauseOfTerm) outer := by
  induction clauses with
  | nil => rfl
  | cons clause rest ih =>
    rw [List.map_cons, Sequence.ofList_cons, ih]
    rfl

theorem ofList_renderCondition (position : Position) (scope : Scope) (clauses : List Term) :
    Sequence.ofList (clauses.map fun clause =>
        renderCondition layout (clauseOfTerm clause) position scope) =
      renderConditions layout (clauses.map clauseOfTerm) position scope := by
  induction clauses with
  | nil => rfl
  | cons clause rest ih =>
    rw [List.map_cons, Sequence.ofList_cons, ih]
    rfl

theorem renderArm_congr {kind : ClauseKind} {outer outer' : Scope}
    (alike : kind = .function ∨ outer.names = outer'.names) (clause : Clause) :
    renderArm layout kind outer clause = renderArm layout kind outer' clause := by
  rw [renderArm, renderClause_congr layout alike]
  rfl

theorem free_renderArm (kind : ClauseKind) (outer : Scope) (t : Term) :
    (renderArm layout kind outer (clauseOfTerm t)).declared.pinning = false := by
  have clause := readsClause t
  generalize clauseOfTerm t = read at clause
  cases clause with
  | @clause a patterns guards body => exact free_renderAll layout .pattern patterns.members _
  | malformed => rfl

theorem free_renderCondition (t : Term) (position : Position) (scope : Scope) :
    (renderCondition layout (clauseOfTerm t) position scope).declared.pinning = false := by
  have clause := readsClause t
  generalize clauseOfTerm t = read at clause
  cases clause with
  | @clause a patterns guards body => exact free_renderAll layout position body.members scope
  | malformed => rfl

end Expr

/-- The expressions that hold clauses, with all that they hold beside them. -/
inductive ClauseHolder where
  | caseOf (a value : Term)
  | ifOf (a : Term)
  | receive (a : Term)
  | receiveAfter (a timeout : Term) (after : List Term)
  | closure (a : Term)

namespace ClauseHolder

def term (clauses : List Term) : ClauseHolder → Term
  | .caseOf a value => Construct.caseOf.term a [value, .list clauses]
  | .ifOf a => Construct.ifOf.term a [.list clauses]
  | .receive a => Construct.receive.term a [.list clauses]
  | .receiveAfter a timeout after =>
    Construct.receiveAfter.term a [.list clauses, timeout, .list after]
  | .closure a => Construct.funValue.term a [.tuple [.atom "clauses", .list clauses]]

variable (layout : Layout) (position : Position) (scope : Scope)

/-- The arm that a clause has. Of the other parts, it sees the value that a case is about. -/
def arm (clause : Term) : ClauseHolder → Rendering
  | .caseOf _ value =>
    let first := (Expr.ofTerm value).render layout position scope
    Expr.renderArm layout .branch (scope.thread first.declared) (Expr.clauseOfTerm clause)
  | .ifOf _ => Expr.renderCondition layout (Expr.clauseOfTerm clause) position scope
  | .receive _ | .receiveAfter .. =>
    Expr.renderArm layout .branch scope (Expr.clauseOfTerm clause)
  | .closure _ => Expr.renderArm layout .closure scope (Expr.clauseOfTerm clause)

/-- The text around the lines of the arms. The parts that are no clauses see nothing of the arms. -/
def frame (count : Nat) (lines : String) : ClauseHolder → String
  | .caseOf _ value =>
    let first := (Expr.ofTerm value).render layout position scope
    "case " ++ first.text ++ " do\n" ++ layout.indent lines ++ "\nend"
  | .ifOf _ => "cond do\n" ++ layout.indent lines ++ "\nend"
  | .receive _ => "receive do\n" ++ layout.indent lines ++ "\nend"
  | .receiveAfter _ timeout after =>
    let time := (Expr.ofTerm timeout).render layout position scope
    let later := scope.thread time.declared
    let body := (Expr.renderAll layout (Expr.ofTerms after) position later).join "\n"
    let received := if count = 0 then "" else layout.indent lines ++ "\n"
    "receive do\n" ++ received ++ "after\n" ++ layout.indent (layout.arm time.text body.text) ++
      "\nend"
  | .closure _ =>
    -- A single arm can stand on the line of its function value.
    if count = 1 ∧ '\n' ∉ lines.toList then "fn " ++ lines ++ " end"
    else "fn\n" ++ layout.indent lines ++ "\nend"

def declares (arms : Scope) : ClauseHolder → Scope
  | .caseOf _ value => ((Expr.ofTerm value).render layout position scope).declared ∪ arms
  | .ifOf _ | .receive _ => arms
  | .receiveAfter _ timeout after =>
    let time := (Expr.ofTerm timeout).render layout position scope
    let later := scope.thread time.declared
    let body := (Expr.renderAll layout (Expr.ofTerms after) position later).join "\n"
    arms ∪ time.declared ∪ body.declared
  | .closure _ => ∅

def warns (arms : List Warning) : ClauseHolder → List Warning
  | .caseOf _ value => ((Expr.ofTerm value).render layout position scope).warnings ++ arms
  | .ifOf _ | .receive _ | .closure _ => arms
  | .receiveAfter _ timeout after =>
    let time := (Expr.ofTerm timeout).render layout position scope
    let later := scope.thread time.declared
    let body := (Expr.renderAll layout (Expr.ofTerms after) position later).join "\n"
    arms ++ time.warnings ++ body.warnings

theorem arms_eq {opening line : String} (broken : opening ++ "\n" = line) (arms : List String) :
    layout.arms opening arms = line ++ layout.indent ("\n".intercalate arms) ++ "\nend" := by
  rw [Layout.arms, broken]

theorem text_caseOf (a value : Term) (arms : List String) :
    layout.arms ("case " ++ ((Expr.ofTerm value).render layout position scope).text ++ " do") arms =
      (caseOf a value).frame layout position scope arms.length ("\n".intercalate arms) :=
  arms_eq layout (String.append_assoc ..) arms

theorem text_receiveAfter (a timeout : Term) (after : List Term) (arms : List String) :
    let time := (Expr.ofTerm timeout).render layout position scope
    let later := scope.thread time.declared
    let body := (Expr.renderAll layout (Expr.ofTerms after) position later).join "\n"
    Expr.receiveAfterText layout arms time.text body.text =
      (receiveAfter a timeout after).frame layout position scope arms.length
        ("\n".intercalate arms) := by
  intro time later body
  have ending := arms_eq layout (show "after" ++ "\n" = "after\n" from rfl)
  simp only [Expr.receiveAfterText, frame, ending, List.isEmpty_iff, List.length_eq_zero_iff,
    String.intercalate_singleton, String.append_assoc]
  rfl

theorem text_closure (a : Term) (arms : List String) :
    Expr.closureText layout arms =
      (closure a).frame layout position scope arms.length ("\n".intercalate arms) := by
  match arms with
  | [] => rfl
  | [arm] =>
    have broken := Text.spansLines_iff arm
    rw [frame, String.intercalate_singleton, Expr.closureText]
    by_cases spans : Text.spansLines arm = true
    · rw [if_pos spans, if_neg fun single => single.2 (broken.1 spans)]
      rfl
    · rw [if_neg spans, if_pos ⟨rfl, fun member => spans (broken.2 member)⟩]
  | first :: second :: rest =>
    have several : (first :: second :: rest).length ≠ 1 := by simp
    rw [frame, if_neg fun single => several single.1]
    rfl

theorem render_term (holder : ClauseHolder) (clauses : List Term) :
    let arm := fun clause => holder.arm layout position scope clause
    (Expr.ofTerm (holder.term clauses)).render layout position scope =
      { text := holder.frame layout position scope clauses.length
          ("\n".intercalate (clauses.map fun clause => (arm clause).text))
        declared := holder.declares layout position scope
          (Sequence.ofList (clauses.map arm)).declared
        warnings := holder.warns layout position scope
          (clauses.flatMap fun clause => (arm clause).warnings) } := by
  intro arm
  have texts : (Sequence.ofList (clauses.map arm)).texts =
      clauses.map fun clause => (arm clause).text := by
    rw [Sequence.texts_ofList, List.map_map]
    rfl
  have warnings : (Sequence.ofList (clauses.map arm)).warnings =
      clauses.flatMap fun clause => (arm clause).warnings := by
    rw [Sequence.warnings_ofList, List.flatMap_map]
  have count : clauses.length = (Sequence.ofList (clauses.map arm)).texts.length := by
    rw [texts, List.length_map]
  rw [← texts, ← warnings, count]
  cases holder with
  | caseOf a value =>
    let first := (Expr.ofTerm value).render layout position scope
    have alone : Sequence.ofList (clauses.map arm) = Expr.renderArms layout .branch
        (clauses.map Expr.clauseOfTerm) (scope.thread first.declared) :=
      Expr.ofList_renderArm layout ..
    rw [alone, ← text_caseOf, term, Expr.ofTerm_caseOf]
    rfl
  | ifOf a =>
    have alone : Sequence.ofList (clauses.map arm) =
        Expr.renderConditions layout (clauses.map Expr.clauseOfTerm) position scope :=
      Expr.ofList_renderCondition layout ..
    rw [alone, term, Expr.ofTerm_ifOf]
    rfl
  | receive a =>
    have alone : Sequence.ofList (clauses.map arm) =
        Expr.renderArms layout .branch (clauses.map Expr.clauseOfTerm) scope :=
      Expr.ofList_renderArm layout ..
    rw [alone, term, Expr.ofTerm_receive]
    rfl
  | receiveAfter a timeout after =>
    have alone : Sequence.ofList (clauses.map arm) =
        Expr.renderArms layout .branch (clauses.map Expr.clauseOfTerm) scope :=
      Expr.ofList_renderArm layout ..
    rw [alone, ← text_receiveAfter, term, Expr.ofTerm_receiveAfter, ← Expr.ofTerms_eq_map]
    rfl
  | closure a =>
    have alone : Sequence.ofList (clauses.map arm) =
        Expr.renderArms layout .closure (clauses.map Expr.clauseOfTerm) scope :=
      Expr.ofList_renderArm layout ..
    rw [alone, ← text_closure, term, Expr.ofTerm_closure]
    rfl

theorem free_arm (holder : ClauseHolder) (clause : Term) :
    (holder.arm layout position scope clause).declared.pinning = false := by
  cases holder with
  | caseOf a value =>
    rw [arm]
    exact Expr.free_renderArm layout .branch _ clause
  | receive | receiveAfter => exact Expr.free_renderArm layout .branch scope clause
  | closure => exact Expr.free_renderArm layout .closure scope clause
  | ifOf => exact Expr.free_renderCondition layout clause position scope

/-- A function value and a receive see the names around them, and nothing else of where they
stand. -/
theorem render_term_congr {holder : ClauseHolder}
    (bare : (∃ a, holder = .closure a) ∨ ∃ a, holder = .receive a) (clauses : List Term)
    (position position' : Position) {scope scope' : Scope} (names : scope.names = scope'.names) :
    (Expr.ofTerm (holder.term clauses)).render layout position scope =
      (Expr.ofTerm (holder.term clauses)).render layout position' scope' := by
  rw [render_term, render_term]
  have arm : holder.arm layout position scope = holder.arm layout position' scope' := by
    funext clause
    rcases bare with ⟨a, rfl⟩ | ⟨a, rfl⟩
    all_goals exact Expr.renderArm_congr layout (.inr names) _
  rw [arm]
  rcases bare with ⟨a, rfl⟩ | ⟨a, rfl⟩
  all_goals rfl

end ClauseHolder

/-- Clauses are isolated. Of the outer scope a clause sees the names alone, and in a named function
nothing. An expression that holds clauses has the arms that they have alone, in their order, and a
named function has their definitions. So to permute the clauses is to permute the arms, each with
its warnings, and declares the same names. What a receive does after its time is over is rendered
as if there were no clauses. -/
theorem clauses_isolated (layout : Layout) :
    (∀ (kind : ClauseKind) (clause : Clause) (outer outer' : Scope),
      kind = .function ∨ outer.names = outer'.names →
        Expr.renderClause layout kind clause outer =
          Expr.renderClause layout kind clause outer') ∧
    (∀ (holder : ClauseHolder) (position : Position) (scope : Scope),
      let arm := fun clause => holder.arm layout position scope clause
      let rendered := fun clauses =>
        (Expr.ofTerm (holder.term clauses)).render layout position scope
      (∀ clauses, rendered clauses =
        { text := holder.frame layout position scope clauses.length
            ("\n".intercalate (clauses.map fun clause => (arm clause).text))
          declared := holder.declares layout position scope
            (Sequence.ofList (clauses.map arm)).declared
          warnings := holder.warns layout position scope
            (clauses.flatMap fun clause => (arm clause).warnings) }) ∧
      ∀ clauses clauses' : List Term, clauses.Perm clauses' →
        (clauses.map arm).Perm (clauses'.map arm) ∧
          (rendered clauses).declared = (rendered clauses').declared) ∧
    (∀ (a timeout : Term) (after clauses : List Term) (position : Position) (scope : Scope),
      let holder := ClauseHolder.receiveAfter a timeout after
      let time := (Expr.ofTerm timeout).render layout position scope
      let later := scope.thread time.declared
      let body := (Expr.renderAll layout (Expr.ofTerms after) position later).join "\n"
      ((Expr.ofTerm (holder.term clauses)).render layout position scope).text =
        "receive do\n" ++
          (if clauses = [] then "" else layout.indent ("\n".intercalate (clauses.map fun clause =>
            (holder.arm layout position scope clause).text)) ++ "\n") ++
          "after\n" ++ layout.indent (layout.arm time.text body.text) ++ "\nend") ∧
    (∀ holder : ClauseHolder, ((∃ a, holder = .closure a) ∨ ∃ a, holder = .receive a) →
      ∀ (clauses : List Term) (position position' : Position) (scope scope' : Scope),
        scope.names = scope'.names →
          (Expr.ofTerm (holder.term clauses)).render layout position scope =
            (Expr.ofTerm (holder.term clauses)).render layout position' scope') ∧
    (∀ (facts : ModuleFacts) (line : Option Int64) (a name arity : Term),
      let keyword := FormContent.keyword facts name.atom? arity.integer?
      let definition := fun clause =>
        FormContent.renderDefinition layout keyword (FormContent.functionName name.atom?)
          (Expr.clauseOfTerm clause)
      (∀ clauses,
        (FormContent.ofTerm (Construct.function.term a [name, arity, .list clauses])).render layout
          facts line =
          { text := some ("\n\n".intercalate ((clauses.map definition).map Prod.fst))
            warnings := (clauses.map definition).flatMap Prod.snd }) ∧
      ∀ clauses clauses' : List Term, clauses.Perm clauses' →
        (clauses.map definition).Perm (clauses'.map definition)) := by
  refine ⟨?seen, ?arms, ?later, ?bare, ?definitions⟩
  case seen =>
    intro kind clause outer outer' alike
    exact Expr.renderClause_congr layout alike clause
  case arms =>
    intro holder position scope arm rendered
    have alone := holder.render_term layout position scope
    refine ⟨alone, fun clauses clauses' perm => ?_⟩
    have permuted := perm.map arm
    -- Only what the arms declare together is free of their order: the texts and the warnings of
    -- the whole follow it.
    have free : ∀ rendering ∈ clauses.map arm, rendering.declared.pinning = false := by
      intro rendering member
      obtain ⟨clause, -, rfl⟩ := List.mem_map.1 member
      exact holder.free_arm layout position scope clause
    refine ⟨permuted, ?_⟩
    simp only [rendered, alone]
    exact congrArg (holder.declares layout position scope)
      (Sequence.declared_ofList_perm permuted free)
  case later =>
    intro a timeout after clauses position scope holder time later body
    rw [ClauseHolder.render_term]
    simp only [holder, ClauseHolder.frame, List.length_eq_zero_iff]
    rfl
  case bare =>
    intro holder bare clauses position position' scope scope' names
    exact ClauseHolder.render_term_congr layout bare clauses position position' names
  case definitions =>
    intro facts line a name arity keyword definition
    refine ⟨fun clauses => ?_, fun clauses clauses' perm => perm.map definition⟩
    have read : clauses.map definition = (clauses.map Expr.clauseOfTerm).map
        (FormContent.renderDefinition layout keyword (FormContent.functionName name.atom?)) := by
      rw [List.map_map]
      rfl
    rw [FormContent.ofTerm_function, read]
    rfl

/-- Two clauses of a receive, of which one binds a name that the body of the other has unbound. -/
theorem clauses_isolated_receive :
    let named := fun name => Construct.variable.term (.list []) [.atom name]
    let clause := fun pattern body => Construct.clause.term (.list [])
      [.list [named pattern], .list [], .list [named body]]
    let binding := clause "X" "X"
    let unbound := clause "Y" "X"
    let holder := ClauseHolder.receive (.list [])
    let scope : Scope := { names := NameSet.ofList ["y"], pinning := true }
    let free := scope.withPinning false
    let rendered := fun clauses scope => (Expr.ofTerm (holder.term clauses)).render {} .pattern scope
    scope.names = free.names ∧ [binding, unbound].Perm [unbound, binding] ∧
      Expr.renderClause {} .branch (Expr.clauseOfTerm unbound) scope =
        Expr.renderClause {} .branch (Expr.clauseOfTerm unbound) free ∧
      (rendered [binding, unbound] scope).declared = (rendered [unbound, binding] scope).declared ∧
      rendered [binding, unbound] scope =
        (Expr.ofTerm (holder.term [binding, unbound])).render {} .expression free ∧
      [binding, unbound].map (fun clause =>
        (Expr.renderClause {} .branch (Expr.clauseOfTerm clause) scope).map fun parts =>
          (parts.head, parts.body)) = [some ("x", "x"), some ("^y", "x")] := by
  intro named clause binding unbound holder scope free rendered
  have names : scope.names = free.names := rfl
  have perm : [binding, unbound].Perm [unbound, binding] := List.Perm.swap ..
  obtain ⟨seen, arms, -, bare, -⟩ := clauses_isolated {}
  refine ⟨names, perm, seen .branch _ scope free (.inr names), ?_, ?_, by decide +kernel⟩
  · exact ((arms holder .pattern scope).2 _ _ perm).2
  · exact bare holder (.inr ⟨.list [], rfl⟩) _ .pattern .expression scope free names

end Legible
