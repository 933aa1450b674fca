import Legible.Proofs.Expr.Reads
import Legible.Spelling

/-!
The names that a term binds, in whatever scope it stands.

They are the names of the variables that are met on the way down through the parts of a term. The
ways down leave out function values, guards, captures and whatever is malformed.
-/

set_option autoImplicit false

namespace Legible.Term

def payload : Term → List Term
  | .tuple (_ :: _ :: payload) => payload
  | _ => []

def entryParts (t : Term) : List Term :=
  match t.construct?, t.payload with
  | some .mapFieldAssoc, [key, value] | some .mapFieldExact, [key, value] => [key, value]
  | _, _ => [t]

theorem entryParts_of_single {t : Term} (noAssoc : t.construct? ≠ some .mapFieldAssoc)
    (noExact : t.construct? ≠ some .mapFieldExact) : t.entryParts = [t] := by
  unfold entryParts
  split
  next found _ => exact absurd found noAssoc
  next found _ => exact absurd found noExact
  next => rfl

/-- The parts of a clause of patterns; guards are none of them. -/
def clauseParts (t : Term) : List Term :=
  match t.construct?, t.payload with
  | some .clause, [patterns, _, body] => patterns.members ++ body.members
  | _, _ => []

theorem clauseParts_eq_nil {t : Term} (noClause : t.construct? ≠ some .clause) :
    t.clauseParts = [] := by
  unfold clauseParts
  split
  next found _ => exact absurd found noClause
  next => rfl

def conditionParts (t : Term) : List Term :=
  match t.construct?, t.payload with
  | some .clause, [_, _, body] => body.members
  | _, _ => []

theorem conditionParts_eq_nil {t : Term} (noClause : t.construct? ≠ some .clause) :
    t.conditionParts = [] := by
  unfold conditionParts
  split
  next found _ => exact absurd found noClause
  next => rfl

def calleeParts (t : Term) : List Term :=
  match t.construct?, t.payload with
  | some .remote, [module, function] => [module, function]
  | _, _ => [t]

/-- The parts of a term whose names are bound after it. -/
def parts (t : Term) : List Term :=
  match t.construct?, t.payload with
  | some .cons, [head, tail] => [head, tail]
  | some .tuple, [elements] => elements.members
  | some .map, [entries] => entries.members.flatMap entryParts
  | some .mapUpdate, [source, entries] => source :: entries.members.flatMap entryParts
  | some .matching, [pattern, value] => [pattern, value]
  | some .binaryOp, [_, left, right] => [left, right]
  | some .unaryOp, [_, operand] => [operand]
  | some .call, [function, .list arguments] => function.calleeParts ++ arguments
  | some .caseOf, [value, .list clauses] => value :: clauses.flatMap clauseParts
  | some .ifOf, [clauses] => clauses.members.flatMap conditionParts
  | some .receive, [clauses] => clauses.members.flatMap clauseParts
  | some .receiveAfter, [.list clauses, timeout, .list after] =>
    clauses.flatMap clauseParts ++ timeout :: after
  | some .block, [body] => body.members
  | _, _ => []

theorem calleeParts_of_not_remote {t : Term} (notRemote : t.construct? ≠ some .remote) :
    t.calleeParts = [t] := by
  unfold calleeParts
  split
  next found _ => exact absurd found notRemote
  next => rfl

theorem not_remote_of_name? {t : Term} {name : String} (named : t.name? = some name) :
    t.construct? ≠ some .remote := by
  rcases name?_eq_some_iff.1 named with rfl | ⟨a, rfl⟩
  · simp [construct?, tag?]
  · simp [Construct.payload]

theorem members_eq_nil {t : Term} (noList : t.list? = none) : t.members = [] := by
  cases t with
  | list => cases noList
  | tuple | atom | number | string => rfl

/-- A name that a term binds, whatever is bound before it. -/
inductive Binds : Term → String → Prop
  | variable {a : Term} {name : String} : Spelling.ofVariable name ≠ Spelling.wildcard →
      Binds (Construct.variable.term a [.atom name]) (Spelling.ofVariable name)
  | part {t u : Term} {name : String} : u ∈ parts t → u.Binds name → t.Binds name

theorem binds_iff_parts {t : Term} (noVariable : t.construct? ≠ some .variable) {name : String} :
    t.Binds name ↔ ∃ u ∈ t.parts, u.Binds name := by
  constructor
  · intro binds
    cases binds with
    | «variable» => exact absurd rfl noVariable
    | part member binds => exact ⟨_, member, binds⟩
  · rintro ⟨u, member, binds⟩
    exact .part member binds

theorem binds_variable_iff {a : Term} {name other : String} :
    (Construct.variable.term a [.atom name]).Binds other ↔
      other = Spelling.ofVariable name ∧ other ≠ Spelling.wildcard := by
  constructor
  · intro binds
    cases binds with
    | «variable» bound => exact ⟨rfl, bound⟩
    | part member => cases member
  · rintro ⟨rfl, bound⟩
    exact .variable bound

theorem not_binds_of_parts {t : Term} (noVariable : t.construct? ≠ some .variable)
    (noParts : t.parts = []) (name : String) : ¬ t.Binds name := by
  rw [binds_iff_parts noVariable, noParts]
  simp

theorem not_binds_of_name? {t : Term} {name : String} (named : t.name? = some name)
    (other : String) : ¬ t.Binds other := by
  rcases name?_eq_some_iff.1 named with rfl | ⟨a, rfl⟩
  · exact not_binds_of_parts (by simp [construct?, tag?]) rfl other
  · exact not_binds_of_parts (by simp [Construct.payload]) rfl other

theorem Malformed.parts_eq {t : Term} {what : Placeholder} (malformed : t.Malformed what) :
    t.parts = [] := by
  cases malformed with
  | @tuple a x noList | @ifOf a x noList | @receive a x noList | @block a x noList =>
    cases x with
    | list => cases noList
    | tuple | atom | number | string => rfl
  | @call a f x noList | @caseOf a f x noList =>
    cases x with
    | list => cases noList
    | tuple | atom | number | string => rfl
  | @receiveAfter a x t y noList =>
    cases x with
    | list =>
      cases y with
      | list => rcases noList with noList | noList <;> cases noList
      | tuple | atom | number | string => rfl
    | tuple | atom | number | string => rfl
  | _ => rfl

theorem Malformed.not_binds {t : Term} {what : Placeholder} (malformed : t.Malformed what)
    (name : String) : ¬ t.Binds name := by
  have noParts := malformed.parts_eq
  cases malformed with
  | «variable» noAtom =>
    intro binds
    cases binds with
    | «variable» => cases noAtom
    | part member => cases member
  | _ => exact not_binds_of_parts (by simp [Construct.payload]) noParts name

theorem parts_of_unsupported {t : Term}
    (foreign : ∀ c, t.construct? = some c → c.isExpression = false) : t.parts = [] := by
  unfold parts
  split
  all_goals first
    | rfl
    | next found _ => exact absurd (foreign _ found) (by decide)

end Legible.Term
