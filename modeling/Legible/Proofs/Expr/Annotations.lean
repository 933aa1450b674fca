import Legible.Proofs.Expr.Relabel
import Legible.Proofs.Term.Annotations

/-!
Expressions of terms without their annotations.

A term reads as the same expression, apart from the details of warnings, whatever its annotations
are. The induction is on the terms inside a term, with one case for each thing it can read as.
-/

set_option autoImplicit false

namespace Legible

namespace Expr

/-- The term reads as the same expression without its annotations, apart from the details of
warnings. -/
def ReadsAlike (t : Term) : Prop :=
  (ofTerm t.withoutAnnotations).mapWarnings .withoutDetails =
    (ofTerm t).mapWarnings .withoutDetails

theorem map_readsAlike {terms : List Term} (each : ∀ t ∈ terms, ReadsAlike t) :
    ((terms.map Term.withoutAnnotations).map ofTerm).map (mapWarnings .withoutDetails) =
      (terms.map ofTerm).map (mapWarnings .withoutDetails) := by
  simp only [List.map_map]
  exact List.map_congr_left each

theorem entry_readsAlike {t : Term} (self : ReadsAlike t)
    (each : ∀ u : Term, u.Inside t → ReadsAlike u) :
    mapEntry .withoutDetails (entryOfTerm t.withoutAnnotations) =
      mapEntry .withoutDetails (entryOfTerm t) := by
  have entry := readsEntry t
  generalize entryOfTerm t = read at entry
  cases entry with
  | @assoc a key value | @exact a key value =>
    have keys := each key (.of_payload (by simp))
    have values := each value (.of_payload (by simp))
    rw [Term.withoutAnnotations_term _ _ rfl]
    exact congrArg₂ Entry.pair keys values
  | single noAssoc noExact =>
    rw [entryOfTerm_single (by simpa using noAssoc) (by simpa using noExact)]
    exact congrArg Entry.single self

section
variable {t : Term} (each : ∀ u : Term, u.Inside t → ReadsAlike u)
include each

theorem members_readsAlike {u : Term} (inside : u.Inside t) :
    (u.withoutAnnotations.members.map ofTerm).map (mapWarnings .withoutDetails) =
      (u.members.map ofTerm).map (mapWarnings .withoutDetails) := by
  rw [Term.members_withoutAnnotations]
  exact map_readsAlike fun v member => each v (.of_mem_members member inside)

theorem tests_readsAlike {guard : Term} (inside : guard.Inside t) :
    (testsOfTerm guard.withoutAnnotations).map (mapWarnings .withoutDetails) =
      (testsOfTerm guard).map (mapWarnings .withoutDetails) := by
  rw [Term.testsOfTerm_eq_map, Term.testsOfTerm_eq_map, Term.tests_withoutAnnotations]
  exact map_readsAlike fun v member => each v (.of_mem_tests member inside)

theorem guards_readsAlike {u : Term} (inside : u.Inside t) :
    (u.withoutAnnotations.members.map testsOfTerm).map (List.map (mapWarnings .withoutDetails)) =
      (u.members.map testsOfTerm).map (List.map (mapWarnings .withoutDetails)) := by
  rw [Term.members_withoutAnnotations]
  simp only [List.map_map]
  exact List.map_congr_left fun guard member =>
    tests_readsAlike each (.of_mem_members member inside)

theorem clause_readsAlike :
    mapClause .withoutDetails (clauseOfTerm t.withoutAnnotations) =
      mapClause .withoutDetails (clauseOfTerm t) := by
  have clause := readsClause t
  generalize clauseOfTerm t = read at clause
  cases clause with
  | @clause a patterns guards body =>
    have inside : ∀ {u : Term}, u ∈ [patterns, guards, body] →
        u.Inside (Construct.clause.term a [patterns, guards, body]) := .of_payload
    have heads := members_readsAlike each (inside (.head _))
    have alternatives := guards_readsAlike each (inside (.tail _ (.head _)))
    have bodies := members_readsAlike each (inside (.tail _ (.tail _ (.head _))))
    rw [Term.withoutAnnotations_term _ _ rfl]
    simp only [List.map_cons, List.map_nil, clauseOfTerm_clause, mapClause, mapAll_eq_map,
      mapGuards_eq_map, heads, alternatives, bodies]
  | malformed noClause =>
    rw [clauseOfTerm_malformed (by simpa using noClause)]

end

theorem entries_readAlike {t : Term} (each : ∀ u : Term, u.Inside t → ReadsAlike u)
    (entries : List Term) (inside : (Term.list entries).Inside t) :
    ((entries.map Term.withoutAnnotations).map entryOfTerm).map (mapEntry .withoutDetails) =
      (entries.map entryOfTerm).map (mapEntry .withoutDetails) := by
  simp only [List.map_map]
  refine List.map_congr_left fun entry member => ?_
  have entryInside : entry.Inside t := inside.of_member member
  exact entry_readsAlike (each entry entryInside) fun u inEntry =>
    each u (inEntry.trans entryInside)

theorem clauses_readAlike {t : Term} (each : ∀ u : Term, u.Inside t → ReadsAlike u)
    (clauses : List Term) (inside : (Term.list clauses).Inside t) :
    ((clauses.map Term.withoutAnnotations).map clauseOfTerm).map (mapClause .withoutDetails) =
      (clauses.map clauseOfTerm).map (mapClause .withoutDetails) := by
  simp only [List.map_map]
  refine List.map_congr_left fun clause member => ?_
  exact clause_readsAlike fun u inClause => each u (inClause.trans (inside.of_member member))

/-- Atoms and numbers in a capture stand as they are in both readings. -/
theorem capturePart_readsAlike {t : Term} (self : ReadsAlike t) :
    (capturePart t.withoutAnnotations (ofTerm t.withoutAnnotations)).mapWarnings .withoutDetails =
      (capturePart t (ofTerm t)).mapWarnings .withoutDetails := by
  cases t with
  | atom | number => rfl
  | tuple => exact self
  | list | string => exact self

private theorem withoutAnnotations_remote {b module function : Term} :
    (Construct.remote.term b [module, function]).withoutAnnotations =
      Construct.remote.term (.list [])
        [module.withoutAnnotations, function.withoutAnnotations] :=
  Term.withoutAnnotations_term _ _ rfl

/-- A payload under a tag of its own is no construct, so nothing in it is an annotation. -/
private theorem withoutAnnotations_clauses {clauses : List Term} :
    (Term.tuple [.atom "clauses", .list clauses]).withoutAnnotations =
      .tuple [.atom "clauses", .list (clauses.map Term.withoutAnnotations)] := by
  rw [Term.withoutAnnotations_tuple rfl, List.map_cons, List.map_cons,
    Term.withoutAnnotations_list]
  rfl

private theorem withoutAnnotations_function {module function arity : Term} :
    (Term.tuple [.atom "function", module, function, arity]).withoutAnnotations =
      .tuple [.atom "function", module.withoutAnnotations, function.withoutAnnotations,
        arity.withoutAnnotations] :=
  Term.withoutAnnotations_tuple rfl

theorem readsAlike (t : Term) : ReadsAlike t := by
  induction t using Term.inside_induction with
  | _ t each =>
    have list : ∀ members : List Term, (Term.list members).Inside t →
        ((members.map Term.withoutAnnotations).map ofTerm).map (mapWarnings .withoutDetails) =
          (members.map ofTerm).map (mapWarnings .withoutDetails) :=
      fun members inside => map_readsAlike fun u member => each u (inside.of_member member)
    have read := reads t
    unfold ReadsAlike
    generalize ofTerm t = e at read
    -- Each case takes the annotation off the construct, reads the stripped payload by the equation
    -- of its kind, and rewrites the parts by what is known of them.
    cases read with
    | unsupported foreign =>
      have stripped : Reads t.withoutAnnotations (ofUnsupported t.withoutAnnotations) :=
        .unsupported (by simpa using foreign)
      rw [stripped.ofTerm_eq]
      exact congrArg₂ Expr.unsupported (Unsupported.withoutLabel_ofExpression t) rfl
    | malformed malformed => rw [ofTerm_malformed malformed.withoutAnnotations]
    | «variable» | atom | integer | float | char | emptyList =>
      rw [Term.withoutAnnotations_term _ _ rfl]
      rfl
    | string spells =>
      rw [Term.withoutAnnotations_term _ _ rfl]
      exact congrArg _ (ofTerm_string (by simpa using spells))
    | @cons a head tail =>
      have first := each head (.of_payload (by simp))
      have rest := each tail (.of_payload (by simp))
      -- The kind of the result hangs on the tail, so both readings stay applications of `cons`.
      rw [Term.withoutAnnotations_term _ _ rfl, mapWarnings_cons, ← first, ← rest,
        ← mapWarnings_cons]
      rfl
    | @tuple a elements =>
      have inner := list elements (.of_payload (by simp))
      rw [Term.withoutAnnotations_term _ _ rfl]
      simp only [List.map_cons, List.map_nil, Term.withoutAnnotations_list, ofTerm_tuple,
        mapWarnings, mapAll_eq_map, inner]
    | @block a body =>
      have inner := list body (.of_payload (by simp))
      rw [Term.withoutAnnotations_term _ _ rfl]
      simp only [List.map_cons, List.map_nil, Term.withoutAnnotations_list, ofTerm_block,
        mapWarnings, mapAll_eq_map, inner]
    | @map a entries =>
      have inner := entries_readAlike each entries (.of_payload (by simp))
      rw [Term.withoutAnnotations_term _ _ rfl]
      simp only [List.map_cons, List.map_nil, Term.withoutAnnotations_list, ofTerm_map,
        mapWarnings, mapEntries_eq_map, inner]
    | @mapHole a x noList =>
      have read : ofTerm (Construct.map.term (.list []) [x.withoutAnnotations]) = _ :=
        Reads.ofTerm_eq (.mapHole (by simp [noList]))
      rw [Term.withoutAnnotations_term _ _ rfl]
      exact congrArg _ read
    | @mapUpdate a source entries =>
      have first := each source (.of_payload (by simp))
      have inner := entries_readAlike each entries (.of_payload (by simp))
      rw [Term.withoutAnnotations_term _ _ rfl]
      simp only [List.map_cons, List.map_nil, Term.withoutAnnotations_list, ofTerm_mapUpdate,
        mapWarnings, mapEntries_eq_map, inner]
      rw [first]
    | @mapUpdateHole a source x noList =>
      have first := each source (.of_payload (by simp))
      have read : ofTerm (Construct.mapUpdate.term (.list []) [source.withoutAnnotations,
          x.withoutAnnotations]) = _ := Reads.ofTerm_eq (.mapUpdateHole (by simp [noList]))
      rw [Term.withoutAnnotations_term _ _ rfl]
      simp only [List.map_cons, List.map_nil, read, mapWarnings]
      rw [first]
    | @matching a left right =>
      have first := each left (.of_payload (by simp))
      have second := each right (.of_payload (by simp))
      rw [Term.withoutAnnotations_term _ _ rfl]
      exact congrArg₂ Expr.matching first second
    | @binaryOp a operator left right =>
      have first := each left (.of_payload (by simp))
      have second := each right (.of_payload (by simp))
      rw [Term.withoutAnnotations_term _ _ rfl]
      -- What stands in the place of the operator is looked up, not read as an expression.
      change Expr.binaryOp operator.withoutAnnotations.atom? _ _ = _
      rw [Term.atom?_withoutAnnotations]
      exact congrArg₂ (Expr.binaryOp operator.atom?) first second
    | @unaryOp a operator operand =>
      have inner := each operand (.of_payload (by simp))
      rw [Term.withoutAnnotations_term _ _ rfl]
      change Expr.unaryOp operator.withoutAnnotations.atom? _ = _
      rw [Term.atom?_withoutAnnotations]
      exact congrArg (Expr.unaryOp operator.atom?) inner
    | @localCall a function name arguments named =>
      have inner := list arguments (.of_payload (by simp))
      rw [Term.withoutAnnotations_term _ _ rfl]
      simp only [List.map_cons, List.map_nil, Term.withoutAnnotations_list]
      rw [ofTerm_localCall (by simpa using named)]
      simp only [mapWarnings, mapAll_eq_map, inner]
    | @remoteCall a b module function moduleName name arguments moduleNamed named =>
      have inner := list arguments (.of_payload (by simp))
      rw [Term.withoutAnnotations_term _ _ rfl]
      simp only [List.map_cons, List.map_nil, Term.withoutAnnotations_list,
        withoutAnnotations_remote]
      rw [ofTerm_remoteCall (by simpa using moduleNamed) (by simpa using named)]
      simp only [mapWarnings, mapAll_eq_map, inner]
    | @dynamicCall a b module function arguments nameless =>
      have callee : (Construct.remote.term b [module, function]).Inside (Construct.call.term a
        [Construct.remote.term b [module, function], .list arguments]) := .of_payload (by simp)
      have first := each module ((Term.Inside.of_payload (by simp)).trans callee)
      have second := each function ((Term.Inside.of_payload (by simp)).trans callee)
      have inner := list arguments (.of_payload (by simp))
      rw [Term.withoutAnnotations_term _ _ rfl]
      simp only [List.map_cons, List.map_nil, Term.withoutAnnotations_list,
        withoutAnnotations_remote]
      rw [ofTerm_dynamicCall (by simpa using nameless)]
      simp only [mapWarnings, mapAll_eq_map, inner]
      rw [first, second]
    | @valueCall a function arguments nameless notRemote =>
      have first := each function (.of_payload (by simp))
      have inner := list arguments (.of_payload (by simp))
      rw [Term.withoutAnnotations_term _ _ rfl]
      simp only [List.map_cons, List.map_nil, Term.withoutAnnotations_list]
      rw [ofTerm_valueCall (by simpa using nameless) (by simpa using notRemote)]
      simp only [mapWarnings, mapAll_eq_map, inner]
      rw [first]
    | @closure a clauses =>
      have holder : (Term.list clauses).Inside (.tuple [.atom "clauses", .list clauses]) :=
        .of_tagged _ (by simp)
      have inner := clauses_readAlike each clauses (holder.trans (.of_payload (by simp)))
      rw [Term.withoutAnnotations_term _ _ rfl]
      simp only [List.map_cons, List.map_nil, withoutAnnotations_clauses, ofTerm_closure,
        mapWarnings, mapClauses_eq_map, inner]
    | localCapture named counted =>
      rw [Term.withoutAnnotations_term _ _ rfl]
      exact congrArg _ (ofTerm_localCapture (by simpa using named) (by simpa using counted))
    | remoteCapture moduleNamed named counted =>
      rw [Term.withoutAnnotations_term _ _ rfl]
      exact congrArg _ (ofTerm_remoteCapture (by simpa using moduleNamed) (by simpa using named)
        (by simpa using counted))
    | @dynamicCapture a module function arity unknown =>
      have part : ∀ {u : Term}, u ∈ [module, function, arity] →
          (capturePart u.withoutAnnotations (ofTerm u.withoutAnnotations)).mapWarnings
            .withoutDetails = (capturePart u (ofTerm u)).mapWarnings .withoutDetails := by
        intro u member
        exact capturePart_readsAlike (each u ((Term.Inside.of_tagged _ member).trans
          (Term.Inside.of_payload (List.mem_singleton_self _))))
      rw [Term.withoutAnnotations_term _ _ rfl]
      simp only [List.map_cons, List.map_nil, withoutAnnotations_function]
      rw [ofTerm_dynamicCapture (by simpa using unknown)]
      simp only [mapWarnings]
      rw [part (by simp), part (by simp), part (by simp)]
    | @caseOf a value clauses =>
      have first := each value (.of_payload (by simp))
      have inner := clauses_readAlike each clauses (.of_payload (by simp))
      rw [Term.withoutAnnotations_term _ _ rfl]
      simp only [List.map_cons, List.map_nil, Term.withoutAnnotations_list, ofTerm_caseOf,
        mapWarnings, mapClauses_eq_map, inner]
      rw [first]
    | @ifOf a clauses =>
      have inner := clauses_readAlike each clauses (.of_payload (by simp))
      rw [Term.withoutAnnotations_term _ _ rfl]
      simp only [List.map_cons, List.map_nil, Term.withoutAnnotations_list, ofTerm_ifOf,
        mapWarnings, mapClauses_eq_map, inner]
    | @receive a clauses =>
      have inner := clauses_readAlike each clauses (.of_payload (by simp))
      rw [Term.withoutAnnotations_term _ _ rfl]
      simp only [List.map_cons, List.map_nil, Term.withoutAnnotations_list, ofTerm_receive,
        mapWarnings, mapClauses_eq_map, inner]
    | @receiveAfter a timeout clauses after =>
      have time := each timeout (.of_payload (by simp))
      have arms := clauses_readAlike each clauses (.of_payload (by simp))
      have inner := list after (.of_payload (by simp))
      rw [Term.withoutAnnotations_term _ _ rfl]
      simp only [List.map_cons, List.map_nil, Term.withoutAnnotations_list, ofTerm_receiveAfter,
        mapWarnings, mapClauses_eq_map, mapAll_eq_map, arms, inner]
      rw [time]

theorem render_mapWarnings_eq {t u : Term} (same : t.SameButAnnotations u) (layout : Layout)
    (position : Position) (scope : Scope) :
    ((ofTerm t).render layout position scope).mapWarnings .withoutDetails =
      ((ofTerm u).render layout position scope).mapWarnings .withoutDetails := by
  rw [← render_mapWarnings, ← readsAlike, same, readsAlike, render_mapWarnings]

end Expr

end Legible
