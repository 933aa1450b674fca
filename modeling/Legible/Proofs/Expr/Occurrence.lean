import Legible.Proofs.Expr.Children
import Legible.Proofs.Expr.Reads

/-!
The variables of an expression, and where in a term they come from.

Children of what a term reads as are what terms inside it read as, so a variable of an expression
is a variable of its term.
-/

set_option autoImplicit false

namespace Legible.Expr

/-- Children that no term was read for: placeholders, and the bare atoms and numbers of a capture. -/
def isBare : Expr → Bool
  | .placeholder _ | .atom _ | .bareNumber _ => true
  | _ => false

theorem mem_children_cons {child head tail : Expr}
    (member : child ∈ (cons head tail).children) :
    child = head ∨ child = tail ∨ child ∈ tail.children := by
  have pair : child = head ∨ child = tail → child = head ∨ child = tail ∨ child ∈ tail.children :=
    Or.imp_right .inl
  cases tail with
  | list | openList =>
    rcases List.mem_cons.1 member with rfl | inElements
    · exact .inl rfl
    · exact .inr (.inr inElements)
  | _ => exact pair (by simpa [cons, children] using member)

/-- A child comes from a term that stands inside, or from no term. -/
def ComesFrom (t : Term) (child : Expr) : Prop :=
  (∃ u, u.Inside t ∧ child = ofTerm u) ∨ child.isBare

namespace ComesFrom

theorem of_inside {t u : Term} (inside : u.Inside t) : ComesFrom t (ofTerm u) :=
  .inl ⟨u, inside, rfl⟩

theorem trans {t u : Term} {child : Expr} (first : ComesFrom u child) (second : u.Inside t) :
    ComesFrom t child := by
  rcases first with ⟨v, inside, rfl⟩ | bare
  · exact of_inside (inside.trans second)
  · exact .inr bare

theorem of_payload {construct : Construct} {a t : Term} {payload : List Term}
    (member : t ∈ payload) : ComesFrom (construct.term a payload) (ofTerm t) :=
  of_inside (.of_payload member)

theorem of_list {t : Term} {members : List Term} (list : (Term.list members).Inside t)
    {child : Expr} (member : child ∈ members.map ofTerm) : ComesFrom t child := by
  obtain ⟨u, inMembers, rfl⟩ := List.mem_map.1 member
  exact of_inside (.of_member inMembers list)

theorem of_members {t u : Term} (inside : u.Inside t) {child : Expr}
    (member : child ∈ u.members.map ofTerm) : ComesFrom t child := by
  cases u with
  | list => exact of_list inside member
  | tuple | atom | number | string => cases member

theorem of_guards {t guards : Term} (inside : guards.Inside t) {child : Expr}
    (member : child ∈ (guards.members.map testsOfTerm).flatten) : ComesFrom t child := by
  obtain ⟨_, inGuards, inTests⟩ := List.mem_flatten.1 member
  obtain ⟨guard, inMembers, rfl⟩ := List.mem_map.1 inGuards
  have guardInside : guard.Inside t := by
    cases guards with
    | list => exact .of_member inMembers inside
    | tuple | atom | number | string => cases inMembers
  cases guard with
  | list => exact of_list guardInside inTests
  | tuple | atom | number | string =>
    obtain rfl := List.mem_singleton.1 inTests
    exact of_inside guardInside

theorem of_clause {t : Term} {child : Expr} (member : child ∈ (clauseOfTerm t).children) :
    ComesFrom t child := by
  have clause := readsClause t
  generalize clauseOfTerm t = read at clause member
  cases clause with
  | clause =>
    simp only [Clause.children, List.mem_append] at member
    rcases member with (inPatterns | inGuards) | inBody
    · exact of_members (.of_payload (by simp)) inPatterns
    · exact of_guards (.of_payload (by simp)) inGuards
    · exact of_members (.of_payload (by simp)) inBody
  | malformed => cases member

theorem of_clauses {t : Term} {clauses : List Term} (list : (Term.list clauses).Inside t)
    {child : Expr} (member : child ∈ (clauses.map clauseOfTerm).flatMap Clause.children) :
    ComesFrom t child := by
  obtain ⟨_, inClauses, inClause⟩ := List.mem_flatMap.1 member
  obtain ⟨u, inTerms, rfl⟩ := List.mem_map.1 inClauses
  exact (of_clause inClause).trans (.of_member inTerms list)

theorem of_entries {t : Term} {entries : List Term} (list : (Term.list entries).Inside t)
    {child : Expr} (member : child ∈ (entries.map entryOfTerm).flatMap Entry.children) :
    ComesFrom t child := by
  obtain ⟨_, inEntries, inEntry⟩ := List.mem_flatMap.1 member
  obtain ⟨u, inTerms, rfl⟩ := List.mem_map.1 inEntries
  have inside : u.Inside t := .of_member inTerms list
  have entry := readsEntry u
  generalize entryOfTerm u = read at entry inEntry
  cases entry with
  | assoc | exact =>
    simp only [Entry.children, List.mem_cons, List.not_mem_nil, or_false] at inEntry
    rcases inEntry with rfl | rfl <;> exact (of_payload (by simp)).trans inside
  | single =>
    obtain rfl := List.mem_singleton.1 inEntry
    exact of_inside inside

theorem of_capturePart {t u : Term} (inside : u.Inside t) :
    ComesFrom t (capturePart u (ofTerm u)) := by
  cases u with
  | atom | number => exact .inr rfl
  | tuple | list | string => exact of_inside inside

end ComesFrom

theorem comesFrom_of_mem_children (t : Term) :
    ∀ child ∈ (ofTerm t).children, ComesFrom t child := by
  induction t using Term.inside_induction with
  | _ t ih =>
    have read := reads t
    intro child member
    generalize ofTerm t = e at read member
    cases read with
    | unsupported | malformed | «variable» | atom | integer | float | char | string | emptyList
    | localCapture | remoteCapture => cases member
    | @cons a head tail =>
      -- The elements of the tail are children here as well, since the list is written out.
      have inside : tail.Inside (Construct.cons.term a [head, tail]) := .of_payload (by simp)
      rcases mem_children_cons member with rfl | rfl | inTail
      · exact .of_payload (by simp)
      · exact .of_payload (by simp)
      · exact (ih tail inside child inTail).trans inside
    | tuple | localCall | remoteCall | block => exact .of_list (.of_payload (by simp)) member
    | map => exact .of_entries (.of_payload (by simp)) member
    | mapHole =>
      obtain rfl := List.mem_singleton.1 member
      exact .inr rfl
    | mapUpdate =>
      rcases List.mem_cons.1 member with rfl | inEntries
      · exact .of_payload (by simp)
      · exact .of_entries (.of_payload (by simp)) inEntries
    | mapUpdateHole =>
      rcases List.mem_cons.1 member with rfl | inEntries
      · exact .of_payload (by simp)
      · obtain rfl := List.mem_singleton.1 inEntries
        exact .inr rfl
    | matching | binaryOp | unaryOp =>
      simp only [children, List.mem_cons, List.not_mem_nil, or_false] at member
      rcases member with rfl | rfl <;> exact .of_payload (by simp)
    | @dynamicCall a b module function arguments =>
      have callee : (Construct.remote.term b [module, function]).Inside (Construct.call.term a
        [Construct.remote.term b [module, function], .list arguments]) := .of_payload (by simp)
      simp only [children, List.mem_cons] at member
      rcases member with rfl | rfl | inArguments
      · exact (ComesFrom.of_payload (by simp)).trans callee
      · exact (ComesFrom.of_payload (by simp)).trans callee
      · exact .of_list (.of_payload (by simp)) inArguments
    | valueCall =>
      rcases List.mem_cons.1 member with rfl | inArguments
      · exact .of_payload (by simp)
      · exact .of_list (.of_payload (by simp)) inArguments
    | @closure a clauses =>
      have list : (Term.list clauses).Inside (.tuple [.atom "clauses", .list clauses]) :=
        .of_tagged _ (by simp)
      exact .of_clauses (list.trans (.of_payload (by simp))) member
    | @dynamicCapture a module function arity =>
      have inside : ∀ u ∈ [module, function, arity], u.Inside (Construct.funValue.term a
          [.tuple [.atom "function", module, function, arity]]) :=
        fun u inParts => (Term.Inside.of_tagged (.atom "function") inParts).trans (.of_payload (by simp))
      simp only [children, List.mem_cons, List.not_mem_nil, or_false] at member
      rcases member with rfl | rfl | rfl <;> exact .of_capturePart (inside _ (by simp))
    | caseOf =>
      rcases List.mem_cons.1 member with rfl | inClauses
      · exact .of_payload (by simp)
      · exact .of_clauses (.of_payload (by simp)) inClauses
    | ifOf | receive => exact .of_clauses (.of_payload (by simp)) member
    | receiveAfter =>
      simp only [children, List.mem_append, List.mem_cons] at member
      rcases member with inClauses | rfl | inAfter
      · exact .of_clauses (.of_payload (by simp)) inClauses
      · exact .of_payload (by simp)
      · exact .of_list (.of_payload (by simp)) inAfter

inductive Mentions : Expr → String → Prop
  | variable {name : String} : Mentions (.variable name) name
  | child {child e : Expr} {name : String} : child ∈ e.children → child.Mentions name →
      e.Mentions name

theorem Every.of_mentions {P : Expr → Prop} (e : Expr)
    (named : ∀ name, e.Mentions name → P (.variable name))
    (plain : ∀ e, (∀ name, e ≠ .variable name) → P e) : e.Every P := by
  induction e using children_induction with
  | _ e ih =>
    refine .node ?_ fun child member =>
      ih child member fun name mentions => named name (.child member mentions)
    by_cases isVariable : ∃ name, e = .variable name
    · obtain ⟨name, rfl⟩ := isVariable
      exact named name .variable
    · exact plain e fun name eq => isVariable ⟨name, eq⟩

theorem not_mentions_of_isBare {e : Expr} (bare : e.isBare) (name : String) :
    ¬ e.Mentions name := by
  intro mentions
  cases mentions with
  | «variable» => cases bare
  | child member =>
    cases e with
    | placeholder | atom | bareNumber => cases member
    | _ => cases bare

private theorem cons_ne_variable (head tail : Expr) (name : String) :
    cons head tail ≠ .variable name := by
  cases tail <;> simp [cons]

/-- A variable of an expression is a variable of the term that it was read from. -/
theorem mem_subterms_of_mentions (t : Term) {name : String} (mentions : (ofTerm t).Mentions name) :
    ∃ a, Construct.variable.term a [.atom name] ∈ t.subterms := by
  induction t using Term.inside_induction with
  | _ t ih =>
    generalize eq : ofTerm t = e at mentions
    cases mentions with
    | «variable» =>
      have read := reads t
      generalize ofTerm t = e at eq read
      cases read with
      | @«variable» a => cases eq; exact ⟨a, Term.mem_subterms_self _⟩
      | cons => exact absurd eq (cons_ne_variable _ _ _)
      | _ => cases eq
    | child member mentions =>
      subst eq
      rcases comesFrom_of_mem_children t _ member with ⟨u, inside, rfl⟩ | bare
      · obtain ⟨a, inU⟩ := ih u inside mentions
        exact ⟨a, Term.mem_subterms_trans inU inside.mem_subterms⟩
      · exact absurd mentions (not_mentions_of_isBare bare name)

end Legible.Expr
