import Mathlib.Data.List.Flatten
import Mathlib.Data.List.Perm.Subperm
import Legible.Proofs.Term.Binds

/-!
The walk through a term, and the unsupported terms that it meets.

The walk goes through the parts of a term in the order in which they are evaluated: a match has its
value first, a clause its patterns, guards and body, and everything else goes from left to right. It
leaves out names that are known without evaluation, the patterns of conditions, and whatever is
malformed. It ends at terms that have no form of their own.
-/

set_option autoImplicit false

namespace Legible.Term

def isExpression (t : Term) : Bool :=
  t.construct?.any Construct.isExpression

/-- The tests of a guard; what is no list is a test itself. -/
def tests : Term → List Term
  | .list tests => tests
  | t => [t]

def clauseVisits (t : Term) : List Term :=
  match t.construct?, t.payload with
  | some .clause, [patterns, guards, body] =>
    patterns.members ++ guards.members.flatMap tests ++ body.members
  | _, _ => []

def conditionVisits (t : Term) : List Term :=
  match t.construct?, t.payload with
  | some .clause, [_, guards, body] => guards.members.flatMap tests ++ body.members
  | _, _ => []

/-- What is visited of a function that is called. A name needs no visit, and neither does a function
of a module if both are names. -/
def calleeVisits (t : Term) : List Term :=
  match t.name?, t.construct?, t.payload with
  | some _, _, _ => []
  | none, some .remote, [module, function] =>
    if module.name?.isSome && function.name?.isSome then [] else [module, function]
  | none, _, _ => [t]

def capturePartVisits : Term → List Term
  | .atom _ | .number _ => []
  | t => [t]

def captureVisits (module function arity : Term) : List Term :=
  if module.name?.isSome && function.name?.isSome && arity.count?.isSome then []
  else module.capturePartVisits ++ function.capturePartVisits ++ arity.capturePartVisits

def visits (t : Term) : List Term :=
  match t.construct?, t.payload with
  | some .cons, [head, tail] => [head, tail]
  | some .tuple, [elements] => elements.members
  | some .map, [entries] => entries.members.flatMap entryParts
  | some .mapUpdate, [source, entries] => source :: entries.members.flatMap entryParts
  | some .matching, [pattern, value] => [value, pattern]
  | some .binaryOp, [_, left, right] => [left, right]
  | some .unaryOp, [_, operand] => [operand]
  | some .call, [function, .list arguments] => function.calleeVisits ++ arguments
  | some .funValue, [.tuple [.atom "clauses", clauses]] => clauses.members.flatMap clauseVisits
  | some .funValue, [.tuple [.atom "function", module, function, arity]] =>
    captureVisits module function arity
  | some .caseOf, [value, .list clauses] => value :: clauses.flatMap clauseVisits
  | some .ifOf, [clauses] => clauses.members.flatMap conditionVisits
  | some .receive, [clauses] => clauses.members.flatMap clauseVisits
  | some .receiveAfter, [.list clauses, timeout, .list after] =>
    clauses.flatMap clauseVisits ++ timeout :: after
  | some .block, [body] => body.members
  | _, _ => []

/-- Terms that stand in different places of others: with all their subterms they are among those of
the others, each of them as often. -/
def Apart (us ts : List Term) : Prop :=
  List.Subperm (us.flatMap subterms) (ts.flatMap subterms)

private theorem subperm_flatMap {ts : List Term} {f g : Term → List Term}
    (each : ∀ t ∈ ts, List.Subperm (f t) (g t)) : List.Subperm (ts.flatMap f) (ts.flatMap g) := by
  induction ts with
  | nil => exact .refl _
  | cons t rest ih =>
    rw [List.forall_mem_cons] at each
    exact each.1.append (ih each.2)

namespace Apart

theorem of_sublist {us ts : List Term} (sublist : us.Sublist ts) : Apart us ts :=
  (sublist.flatMap subterms).subperm

theorem nil (ts : List Term) : Apart [] ts :=
  of_sublist (List.nil_sublist ts)

theorem refl (ts : List Term) : Apart ts ts :=
  List.Subperm.refl _

theorem trans {us ts vs : List Term} (first : Apart us ts) (second : Apart ts vs) : Apart us vs :=
  List.Subperm.trans first second

theorem append {us us' ts ts' : List Term} (first : Apart us ts) (second : Apart us' ts') :
    Apart (us ++ us') (ts ++ ts') := by
  simp only [Apart, List.flatMap_append]
  exact List.Subperm.append first second

theorem cons (t : Term) {us ts : List Term} (later : Apart us ts) : Apart (t :: us) (t :: ts) :=
  append (refl [t]) later

theorem swap (t u : Term) : Apart [u, t] [t, u] :=
  ((List.Perm.swap t u []).flatMap_right subterms).subperm

theorem flatMap {f : Term → List Term} (each : ∀ t, Apart (f t) [t]) (ts : List Term) :
    Apart (ts.flatMap f) ts := by
  rw [Apart, List.flatMap_assoc]
  exact subperm_flatMap fun t _ => by simpa [Apart] using each t

theorem elements (t : Term) : Apart t.elements [t] := by
  cases t with
  | tuple | list =>
    simpa [Apart, Term.elements, subterms, subtermsOf_eq_flatMap] using
      (List.sublist_cons_self _ _).subperm
  | atom | number | string => exact nil _

theorem payload (t : Term) : Apart t.payload t.elements := by
  unfold Term.payload
  split
  next tag a payload => exact of_sublist (.cons tag (.cons a (.refl payload)))
  next => exact nil _

theorem tagged (tag : Term) (rest : List Term) : Apart rest [.tuple (tag :: rest)] :=
  (of_sublist (.cons tag (.refl rest))).trans (elements (.tuple (tag :: rest)))

theorem members (t : Term) : Apart t.members [t] := by
  cases t with
  | list members => exact elements (.list members)
  | tuple | atom | number | string => exact nil _

theorem entryParts (t : Term) : Apart t.entryParts [t] := by
  have inner := (payload t).trans (elements t)
  unfold Term.entryParts
  split
  next found => exact found ▸ inner
  next found => exact found ▸ inner
  next => exact refl [t]

theorem tests (t : Term) : Apart t.tests [t] := by
  cases t with
  | list tests => exact elements (.list tests)
  | tuple | atom | number | string => exact refl _

theorem membersFlatMap {f : Term → List Term} (each : ∀ t, Apart (f t) [t]) (t : Term) :
    Apart (t.members.flatMap f) [t] :=
  (flatMap each t.members).trans (members t)

theorem clauseVisits (t : Term) : Apart t.clauseVisits [t] := by
  have inner := (payload t).trans (elements t)
  unfold Term.clauseVisits
  split
  next patterns guards body _ found =>
    rw [found] at inner
    exact ((append (append (members patterns) (membersFlatMap tests guards))
      (members body)).trans inner)
  next => exact nil _

theorem conditionVisits (t : Term) : Apart t.conditionVisits [t] := by
  have inner := (payload t).trans (elements t)
  unfold Term.conditionVisits
  split
  next patterns guards body _ found =>
    rw [found] at inner
    have parts := append (membersFlatMap tests guards) (members body)
    exact (parts.trans (of_sublist (.cons patterns (.refl _)))).trans inner
  next => exact nil _

theorem calleeVisits (t : Term) : Apart t.calleeVisits [t] := by
  have inner := (payload t).trans (elements t)
  unfold Term.calleeVisits
  split
  next => exact nil _
  next found =>
    split
    · exact nil _
    · exact found ▸ inner
  next => exact refl [t]

theorem capturePartVisits (t : Term) : Apart t.capturePartVisits [t] := by
  cases t with
  | atom | number => exact nil _
  | tuple | list | string => exact refl _

theorem captureVisits (module function arity : Term) :
    Apart (captureVisits module function arity) [module, function, arity] := by
  unfold Term.captureVisits
  split
  · exact nil _
  · exact append (append (capturePartVisits module) (capturePartVisits function))
      (capturePartVisits arity)

/-- No part of a term is visited twice. -/
theorem visits (t : Term) : Apart t.visits t.elements := by
  have inner := payload t
  have clauses := membersFlatMap clauseVisits
  have entries := membersFlatMap entryParts
  unfold Term.visits
  -- The cases follow the constructs in the order in which the walk lists them.
  split
  next found => exact found ▸ inner
  next elements _ found => exact (members elements).trans (found ▸ inner)
  next fields _ found => exact (entries fields).trans (found ▸ inner)
  next source fields _ found => exact (cons source (entries fields)).trans (found ▸ inner)
  next pattern value _ found => exact (swap pattern value).trans (found ▸ inner)
  next operator left right _ found =>
    exact (of_sublist (.cons operator (.refl _))).trans (found ▸ inner)
  next operator operand _ found =>
    exact (of_sublist (.cons operator (.refl _))).trans (found ▸ inner)
  next function arguments _ found =>
    rw [found] at inner
    exact (append (calleeVisits function) (members (.list arguments))).trans inner
  next arms _ found => exact ((clauses arms).trans (tagged _ [arms])).trans (found ▸ inner)
  next module function arity _ found =>
    have parts := captureVisits module function arity
    exact (parts.trans (tagged _ [module, function, arity])).trans (found ▸ inner)
  next value arms _ found => exact (cons value (clauses (.list arms))).trans (found ▸ inner)
  next arms _ found =>
    exact (membersFlatMap conditionVisits arms).trans (found ▸ inner)
  next arms _ found => exact (clauses arms).trans (found ▸ inner)
  next arms timeout after _ found =>
    rw [found] at inner
    exact (append (clauses (.list arms)) (cons timeout (members (.list after)))).trans inner
  next body _ found => exact (members body).trans (found ▸ inner)
  next => exact nil _

end Apart

theorem inside_of_mem_visits {t u : Term} (visited : u ∈ t.visits) : u.Inside t := by
  have member := (Apart.visits t).subset (List.mem_flatMap.2 ⟨u, visited, u.mem_subterms_self⟩)
  exact List.mem_flatMap.1 member

theorem testsOfTerm_eq_map (t : Term) : Expr.testsOfTerm t = t.tests.map Expr.ofTerm := by
  cases t <;> rfl

theorem Inside.of_mem_members {t u v : Term} (member : t ∈ u.members) (inside : u.Inside v) :
    t.Inside v := by
  cases u with
  | list => exact .of_member member inside
  | tuple | atom | number | string => cases member

theorem Inside.of_mem_tests {t u v : Term} (member : t ∈ u.tests) (inside : u.Inside v) :
    t.Inside v := by
  cases u with
  | list => exact .of_member member inside
  | tuple | atom | number | string =>
    obtain rfl := List.mem_singleton.1 member
    exact inside

theorem clauseVisits_eq_nil {t : Term} (noClause : t.construct? ≠ some .clause) :
    t.clauseVisits = [] := by
  unfold clauseVisits
  split
  next found _ => exact absurd found noClause
  next => rfl

theorem conditionVisits_eq_nil {t : Term} (noClause : t.construct? ≠ some .clause) :
    t.conditionVisits = [] := by
  unfold conditionVisits
  split
  next found _ => exact absurd found noClause
  next => rfl

theorem calleeVisits_of_name? {t : Term} {name : String} (named : t.name? = some name) :
    t.calleeVisits = [] := by
  rw [calleeVisits, named]

theorem calleeVisits_of_nameless {t : Term} (nameless : t.name? = none)
    (notRemote : t.construct? ≠ some .remote) : t.calleeVisits = [t] := by
  unfold calleeVisits
  split
  next named => cases named.symm.trans nameless
  next found _ => exact absurd found notRemote
  next => rfl

section
variable {a module function arity : Term}

theorem calleeVisits_remote : (Construct.remote.term a [module, function]).calleeVisits =
    if module.name?.isSome && function.name?.isSome then [] else [module, function] :=
  rfl

theorem calleeVisits_of_names {moduleName name : String} (moduleNamed : module.name? = some moduleName)
    (named : function.name? = some name) :
    (Construct.remote.term a [module, function]).calleeVisits = [] := by
  simp [calleeVisits_remote, moduleNamed, named]

theorem calleeVisits_of_remote (nameless : module.name? = none ∨ function.name? = none) :
    (Construct.remote.term a [module, function]).calleeVisits = [module, function] := by
  rw [calleeVisits_remote, if_neg]
  rcases nameless with missing | missing <;> simp [missing]

theorem captureVisits_of_known {moduleName name : String} {count : Int64}
    (moduleNamed : module.name? = some moduleName) (named : function.name? = some name)
    (counted : arity.count? = some count) : captureVisits module function arity = [] := by
  simp [captureVisits, moduleNamed, named, counted]

theorem captureVisits_of_unknown
    (unknown : module.name? = none ∨ function.name? = none ∨ arity.count? = none) :
    captureVisits module function arity =
      module.capturePartVisits ++ function.capturePartVisits ++ arity.capturePartVisits := by
  rw [captureVisits, if_neg]
  rcases unknown with missing | missing | missing <;> simp [missing]

end

theorem Malformed.visits_eq {t : Term} {what : Placeholder} (malformed : t.Malformed what) :
    t.visits = [] := by
  cases malformed with
  | @tuple a x noList | @ifOf a x noList | @receive a x noList | @block a x noList =>
    cases x with
    | list => cases noList
    | tuple | atom | number | string => rfl
  | @call a f x noList | @caseOf a f x noList =>
    cases x with
    | list => cases noList
    | tuple | atom | number | string => rfl
  | @receiveAfter a x t y noList =>
    cases x with
    | list =>
      cases y with
      | list => rcases noList with noList | noList <;> cases noList
      | tuple | atom | number | string => rfl
    | tuple | atom | number | string => rfl
  | @closure a x noList =>
    cases x with
    | list => cases noList
    | tuple | atom | number | string => rfl
  | @funValue a x noClauses _ noFunction =>
    have known : (Construct.funValue.term a [x]).construct? = some .funValue := rfl
    unfold visits
    split
    -- Two cases name payloads that are excluded, and all others but the last another construct.
    all_goals first
      | rfl
      | next found _ => cases known.symm.trans found
      | next same => cases same; exact absurd rfl (noClauses _)
      | next same => cases same; exact absurd rfl (noFunction _ _ _)
  | _ => rfl

/-- The terms that the walk meets and that have no form of their own, in the order in which it meets
them. -/
def unsupported (t : Term) : List Term :=
  if t.isExpression then t.visits.attach.flatMap fun u => u.1.unsupported else [t]
termination_by sizeOf t
decreasing_by exact (inside_of_mem_visits u.2).sizeOf_lt

theorem unsupported_of_isExpression {t : Term} (expression : t.isExpression) :
    t.unsupported = t.visits.flatMap unsupported := by
  rw [unsupported, if_pos expression]
  rw [← List.flatMap_map Subtype.val unsupported, List.attach_map_subtype_val]

theorem unsupported_of_not_isExpression {t : Term} (foreign : ¬ t.isExpression) :
    t.unsupported = [t] := by
  rw [unsupported, if_neg foreign]

theorem not_isExpression_of_foreign {t : Term}
    (foreign : ∀ c, t.construct? = some c → c.isExpression = false) : ¬ t.isExpression := by
  cases found : t.construct? with
  | none => simp [isExpression, found]
  | some construct => simp [isExpression, found, foreign construct found]

theorem visits_of_not_isExpression {t : Term} (foreign : ¬ t.isExpression) : t.visits = [] := by
  unfold visits
  split
  all_goals first
    | rfl
    | next found _ => exact absurd (by rw [isExpression, found]; rfl) foreign

inductive Reached : Term → Term → Prop
  | self (t : Term) : Reached t t
  | visit {t u v : Term} : v ∈ t.visits → Reached u v → Reached u t

theorem mem_unsupported_iff {t u : Term} :
    u ∈ t.unsupported ↔ u.Reached t ∧ u.isExpression = false := by
  induction t using inside_induction with
  | _ t ih =>
    by_cases expression : t.isExpression
    · rw [unsupported_of_isExpression expression, List.mem_flatMap]
      constructor
      · rintro ⟨v, visited, met⟩
        obtain ⟨reached, foreign⟩ := (ih v (inside_of_mem_visits visited)).1 met
        exact ⟨.visit visited reached, foreign⟩
      · rintro ⟨reached, foreign⟩
        cases reached with
        | self => cases foreign.symm.trans expression
        | @visit _ _ v visited reached =>
          exact ⟨v, visited, (ih v (inside_of_mem_visits visited)).2 ⟨reached, foreign⟩⟩
    · rw [unsupported_of_not_isExpression expression, List.mem_singleton]
      constructor
      · rintro rfl
        exact ⟨.self u, Bool.eq_false_iff.2 expression⟩
      · rintro ⟨reached, -⟩
        cases reached with
        | self => rfl
        | visit visited =>
          rw [visits_of_not_isExpression expression] at visited
          cases visited

/-- The walk meets no place twice: each unsupported term is met at most as often as it stands in
the term. -/
theorem unsupported_subperm_subterms (t : Term) : List.Subperm t.unsupported t.subterms := by
  induction t using inside_induction with
  | _ t ih =>
    by_cases expression : t.isExpression
    · rw [unsupported_of_isExpression expression]
      have each := subperm_flatMap fun u visited => ih u (inside_of_mem_visits visited)
      have whole : Apart t.visits [t] := (Apart.visits t).trans (Apart.elements t)
      simpa using each.trans whole
    · rw [unsupported_of_not_isExpression expression]
      exact (List.singleton_sublist.2 t.mem_subterms_self).subperm

end Legible.Term
