import Legible.Proofs.Expr.Cons
import Legible.Proofs.Term.Binds

/-!
The names that a rendering declares, in closed form.

What rendering declares is what the term binds, less the names that were bound before, in every
scope and position. Siblings are rendered in different scopes: `Declares.append` says when that
makes no difference.
-/

set_option autoImplicit false

namespace Legible

/-- Declared names pin nothing, and are those that some parts bind and that the scope lacks. -/
structure Declares (declared scope : Scope) (parts : List Term) : Prop where
  free : declared.pinning = false
  mem_iff (name : String) : name ∈ declared ↔ (∃ t ∈ parts, t.Binds name) ∧ name ∉ scope

namespace Declares

theorem of_not_binds {scope : Scope} {ts : List Term}
    (unbound : ∀ t ∈ ts, ∀ name, ¬ t.Binds name) : Declares ∅ scope ts where
  free := rfl
  mem_iff name := by
    simp only [Scope.notMem_empty, false_iff]
    rintro ⟨⟨t, member, binds⟩, -⟩
    exact unbound t member name binds

theorem nil (scope : Scope) : Declares ∅ scope [] :=
  of_not_binds (by simp)

/-- Parts after other parts, in a scope that may or may not have taken up what those declared. -/
theorem append {first second scope later : Scope} {ts us : List Term}
    (before : Declares first scope ts) (after : Declares second later us)
    (kept : ∀ name, name ∈ scope → name ∈ later)
    (added : ∀ name, name ∈ later → name ∈ scope ∨ name ∈ first) :
    Declares (first ∪ second) scope (ts ++ us) where
  free := before.free
  mem_iff name := by
    -- A name of both is declared by the first already, so the union does not care who declares it.
    have := before.mem_iff name
    have := after.mem_iff name
    have := kept name
    have := added name
    simp only [Scope.mem_union, List.mem_append, or_and_right, exists_or]
    grind

theorem beside {first second scope : Scope} {ts us : List Term} (before : Declares first scope ts)
    (after : Declares second scope us) : Declares (first ∪ second) scope (ts ++ us) :=
  append before after (fun _ => id) (fun _ => .inl)

theorem follow {first second scope : Scope} {ts us : List Term}
    (before : Declares first scope ts) (after : Declares second (scope ∪ first) us) :
    Declares (first ∪ second) scope (ts ++ us) :=
  append before after (fun _ bound => Scope.mem_union.2 (.inl bound)) (fun _ => Scope.mem_union.1)

theorem thread {first second scope : Scope} {ts us : List Term}
    (before : Declares first scope ts) (after : Declares second (scope.thread first) us) :
    Declares (first ∪ second) scope (ts ++ us) := by
  cases pinning : scope.pinning with
  | true =>
    rw [Scope.thread_of_pinning pinning] at after
    exact before.beside after
  | false =>
    rw [Scope.thread_of_not_pinning pinning] at after
    exact before.follow after

theorem append_of_not_binds {declared scope : Scope} {ts us : List Term}
    (unbound : ∀ t ∈ ts, ∀ name, ¬ t.Binds name) (after : Declares declared scope us) :
    Declares declared scope (ts ++ us) where
  free := after.free
  mem_iff name := by
    have none : ¬ ∃ t ∈ ts, t.Binds name := fun ⟨t, member, binds⟩ => unbound t member name binds
    simp [after.mem_iff name, or_and_right, exists_or, none]

theorem swap {declared scope : Scope} {t u : Term} (swapped : Declares declared scope [t, u]) :
    Declares declared scope [u, t] where
  free := swapped.free
  mem_iff name := by simp [swapped.mem_iff name, or_comm]

theorem of_parts {declared scope : Scope} {t : Term} (noVariable : t.construct? ≠ some .variable)
    (parts : Declares declared scope t.parts) : Declares declared scope [t] where
  free := parts.free
  mem_iff name := by simp [parts.mem_iff name, Term.binds_iff_parts noVariable]

theorem of_construct {declared scope : Scope} {construct : Construct} {a : Term}
    {payload : List Term} (filled : payload.length = construct.payload.length)
    (noVariable : construct ≠ .variable)
    (parts : Declares declared scope (construct.term a payload).parts) :
    Declares declared scope [construct.term a payload] := by
  apply of_parts _ parts
  rw [Term.construct?_term construct a payload filled]
  simpa using noVariable

theorem of_variable (a : Term) (name : String) (scope : Scope) :
    Declares (Rendering.ofVariable name scope).declared scope
      [Construct.variable.term a [.atom name]] := by
  rw [Rendering.declared_ofVariable]
  split
  next unbound =>
    refine ⟨rfl, fun other => ?_⟩
    simp only [Scope.notMem_empty, List.mem_singleton, exists_eq_left, Term.binds_variable_iff]
    grind
  next free =>
    refine ⟨rfl, fun other => ?_⟩
    simp only [Scope.mem_ofNames, NameSet.mem_singleton, List.mem_singleton, exists_eq_left,
      Term.binds_variable_iff]
    grind

theorem of_withPinning {declared scope : Scope} {pinning : Bool} {ts : List Term}
    (pinned : Declares declared (scope.withPinning pinning) ts) : Declares declared scope ts :=
  ⟨pinned.free, pinned.mem_iff⟩

end Declares

section
variable {layout : Layout}

/-- Rendering what a term reads as declares what the term binds, in every position and scope. -/
def Term.DeclaresBound (layout : Layout) (t : Term) : Prop :=
  ∀ (position : Position) (scope : Scope),
    Declares ((Expr.ofTerm t).render layout position scope).declared scope [t]

theorem renderAll_declares {terms : List Term} (each : ∀ t ∈ terms, t.DeclaresBound layout)
    (position : Position) (scope : Scope) :
    Declares (Expr.renderAll layout (terms.map Expr.ofTerm) position scope).declared scope terms := by
  induction terms generalizing scope with
  | nil => exact .nil scope
  | cons t rest ih =>
    have first := each t (List.mem_cons_self ..) position scope
    exact first.thread (ih (fun u member => each u (List.mem_cons_of_mem t member)) _)

theorem renderEntry_declares {t : Term} (self : t.DeclaresBound layout)
    (each : ∀ u : Term, u.Inside t → u.DeclaresBound layout) (position : Position) (scope : Scope) :
    Declares (Expr.renderEntry layout (Expr.entryOfTerm t) position scope).declared scope
      t.entryParts := by
  have entry := Expr.readsEntry t
  generalize Expr.entryOfTerm t = read at entry
  cases entry with
  | @assoc a key value | @exact a key value =>
    have first := each key (.of_payload (by simp)) position scope
    exact first.thread (each value (.of_payload (by simp)) position _)
  | single noAssoc noExact =>
    rw [Term.entryParts_of_single noAssoc noExact]
    exact self position scope

theorem renderEntries_declares {entries : List Term}
    (each : ∀ t ∈ entries, t.DeclaresBound layout ∧ ∀ u : Term, u.Inside t → u.DeclaresBound layout)
    (position : Position) (scope : Scope) :
    Declares (Expr.renderEntries layout (entries.map Expr.entryOfTerm) position scope).declared scope
      (entries.flatMap Term.entryParts) := by
  induction entries generalizing scope with
  | nil => exact .nil scope
  | cons t rest ih =>
    obtain ⟨self, inside⟩ := each t (List.mem_cons_self ..)
    have first := renderEntry_declares self inside position scope
    exact first.thread (ih (fun u member => each u (List.mem_cons_of_mem t member)) _)

/-- The members of a part that is a list; any other part has none. -/
theorem renderMembers_declares {t : Term} (each : ∀ u : Term, u.Inside t → u.DeclaresBound layout)
    {x : Term} (inside : x.Inside t) (position : Position) (scope : Scope) :
    Declares (Expr.renderAll layout (x.members.map Expr.ofTerm) position scope).declared scope
      x.members := by
  apply renderAll_declares
  intro u member
  cases x with
  | list => exact each u (.of_member member inside)
  | tuple | atom | number | string => cases member

/-- What the head of a branch declares is bound in its body, and its guard declares nothing. -/
theorem renderClause_declares {t : Term} (each : ∀ u : Term, u.Inside t → u.DeclaresBound layout)
    (outer : Scope) {parts : ClauseRendering}
    (rendered : Expr.renderClause layout .branch (Expr.clauseOfTerm t) outer = some parts) :
    Declares parts.declared outer t.clauseParts := by
  have clause := Expr.readsClause t
  generalize Expr.clauseOfTerm t = read at clause rendered
  cases clause with
  | @clause a patterns guards body =>
    cases rendered
    have head := renderMembers_declares (x := patterns) each (.of_payload (by simp)) .pattern
      (outer.withPinning true)
    -- The body is rendered without pins, and the union of scopes keeps that.
    have rest : Declares _ ((outer ∪ _).withPinning false) body.members :=
      renderMembers_declares each (.of_payload (by simp)) .expression
        (outer.withPinning false ∪ (Expr.renderAll layout (patterns.members.map Expr.ofTerm) .pattern
          (outer.withPinning true)).declared)
    exact head.of_withPinning.follow rest.of_withPinning
  | malformed => cases rendered

theorem renderClause_eq_none_iff {kind : ClauseKind} {t : Term} {outer : Scope} :
    Expr.renderClause layout kind (Expr.clauseOfTerm t) outer = none ↔
      t.construct? ≠ some .clause := by
  have clause := Expr.readsClause t
  generalize Expr.clauseOfTerm t = read at clause
  cases clause with
  | clause => simp [Expr.renderClause, Construct.payload]
  | malformed noClause => simp [Expr.renderClause, noClause]

theorem renderArms_declares {clauses : List Term}
    (each : ∀ t ∈ clauses, ∀ u : Term, u.Inside t → u.DeclaresBound layout) (outer : Scope) :
    Declares (Expr.renderArms layout .branch (clauses.map Expr.clauseOfTerm) outer).declared outer
      (clauses.flatMap Term.clauseParts) := by
  induction clauses with
  | nil => exact .nil outer
  | cons t rest ih =>
    have later := ih fun u member => each u (List.mem_cons_of_mem t member)
    rw [List.map_cons, Expr.renderArms, List.flatMap_cons]
    cases rendered : Expr.renderClause layout .branch (Expr.clauseOfTerm t) outer with
    | some =>
      have first := renderClause_declares (each t (List.mem_cons_self ..)) outer rendered
      exact first.beside later
    | none =>
      rw [Term.clauseParts_eq_nil (renderClause_eq_none_iff.1 rendered)]
      exact (Declares.nil outer).beside later

theorem renderConditions_declares {clauses : List Term}
    (each : ∀ t ∈ clauses, ∀ u : Term, u.Inside t → u.DeclaresBound layout) (position : Position)
    (scope : Scope) :
    Declares (Expr.renderConditions layout (clauses.map Expr.clauseOfTerm) position scope).declared
      scope (clauses.flatMap Term.conditionParts) := by
  induction clauses with
  | nil => exact .nil scope
  | cons t rest ih =>
    have later := ih fun u member => each u (List.mem_cons_of_mem t member)
    have inside := each t (List.mem_cons_self ..)
    rw [List.map_cons, Expr.renderConditions, List.flatMap_cons]
    refine Declares.beside ?_ later
    have clause := Expr.readsClause t
    generalize Expr.clauseOfTerm t = read at clause
    cases clause with
    | @clause a patterns guards body =>
      exact renderMembers_declares inside (.of_payload (by simp)) position scope
    | malformed noClause =>
      rw [Term.conditionParts_eq_nil noClause]
      exact .nil scope

theorem declaresBound (layout : Layout) (t : Term) : t.DeclaresBound layout := by
  induction t using Term.inside_induction with
  | _ t ih =>
    intro position scope
    have read := Expr.reads t
    generalize Expr.ofTerm t = e at read
    -- Entries and clauses are no expressions, so the hypothesis is needed for what is inside them.
    have inList : ∀ list : List Term, (Term.list list).Inside t → ∀ u ∈ list,
        ∀ v : Term, v.Inside u → v.DeclaresBound layout := by
      intro list inside u member v inU
      exact ih v (inU.trans (inside.of_member member))
    have each : ∀ list : List Term, (Term.list list).Inside t → ∀ u ∈ list,
        u.DeclaresBound layout := by
      intro list inside u member
      exact ih u (inside.of_member member)
    have entries : ∀ list : List Term, (Term.list list).Inside t → ∀ u ∈ list,
        u.DeclaresBound layout ∧ ∀ v : Term, v.Inside u → v.DeclaresBound layout := by
      intro list inside u member
      exact ⟨each list inside u member, inList list inside u member⟩
    -- Each case takes up the scopes in which rendering visits the parts, in that order.
    cases read with
    | unsupported foreign =>
      refine .of_parts (fun found => ?_) ?_
      · cases foreign _ found
      · rw [Term.parts_of_unsupported foreign]
        exact .nil scope
    | malformed malformed => exact .of_not_binds (by simp [malformed.not_binds])
    | «variable» => exact .of_variable _ _ scope
    | emptyList | atom | integer | float | char | string | closure | localCapture | remoteCapture
    | dynamicCapture => exact .of_construct rfl (by decide) (.nil scope)
    | @cons a head tail =>
      refine .of_construct rfl (by decide) ?_
      rw [Expr.render_cons]
      have first := ih head (.of_payload (by simp)) position scope
      exact first.thread (ih tail (.of_payload (by simp)) position _)
    | @tuple a list | @block a list =>
      refine .of_construct rfl (by decide) ?_
      exact renderAll_declares (each list (.of_payload (by simp))) position scope
    | @map a list =>
      refine .of_construct rfl (by decide) ?_
      exact renderEntries_declares (entries list (.of_payload (by simp))) position scope
    | mapHole noList =>
      refine .of_construct rfl (by decide) (.of_not_binds ?_)
      simp [Term.parts, Term.payload, Construct.payload, Term.members_eq_nil noList]
    | @mapUpdate a source list =>
      refine .of_construct rfl (by decide) ?_
      have first := ih source (.of_payload (by simp)) position scope
      exact first.thread (renderEntries_declares (entries list (.of_payload (by simp))) position _)
    | @mapUpdateHole a source x noList =>
      refine .of_construct rfl (by decide) ?_
      have first := ih source (.of_payload (by simp)) position scope
      have none : ∀ later, Declares ∅ later (x.members.flatMap Term.entryParts) := by
        rw [Term.members_eq_nil noList]
        exact .nil
      exact first.thread (none _)
    | @matching a pattern value =>
      refine .of_construct rfl (by decide) ?_
      have right := ih value (.of_payload (by simp)) position scope
      have left := ih pattern (.of_payload (by simp)) .pattern
      -- The value is visited before the pattern, which stands first in the term.
      refine Declares.swap ?_
      cases position with
      | pattern => exact right.thread (left _)
      | expression => exact right.follow (left _).of_withPinning
    | @binaryOp a operator left right =>
      refine .of_construct rfl (by decide) ?_
      have first := ih left (.of_payload (by simp)) position scope
      exact first.thread (ih right (.of_payload (by simp)) position _)
    | @unaryOp a operator operand =>
      refine .of_construct rfl (by decide) ?_
      exact ih operand (.of_payload (by simp)) position scope
    | @localCall a function name arguments named =>
      refine .of_construct rfl (by decide) ?_
      have callee : ∀ u ∈ function.calleeParts, ∀ other, ¬ u.Binds other := by
        rw [Term.calleeParts_of_not_remote (Term.not_remote_of_name? named)]
        simp [Term.not_binds_of_name? named]
      exact .append_of_not_binds callee
        (renderAll_declares (each arguments (.of_payload (by simp))) position scope)
    | @remoteCall a b module function moduleName name arguments named functionNamed =>
      refine .of_construct rfl (by decide) ?_
      have callee : ∀ u ∈ [module, function], ∀ other, ¬ u.Binds other := by
        simp [Term.not_binds_of_name? named, Term.not_binds_of_name? functionNamed]
      exact .append_of_not_binds callee
        (renderAll_declares (each arguments (.of_payload (by simp))) position scope)
    | @dynamicCall a b module function arguments =>
      refine .of_construct rfl (by decide) ?_
      have callee : (Construct.remote.term b [module, function]).Inside (Construct.call.term a
        [Construct.remote.term b [module, function], .list arguments]) := .of_payload (by simp)
      have first := ih module ((Term.Inside.of_payload (by simp)).trans callee) position scope
      have second := ih function ((Term.Inside.of_payload (by simp)).trans callee) position
      have inner := renderAll_declares (each arguments (.of_payload (by simp))) position
      have both := first.thread (second _)
      have three := both.thread (inner _)
      rw [← Scope.thread_thread] at three
      exact three
    | @valueCall a function arguments nameless notRemote =>
      refine .of_construct rfl (by decide) ?_
      have first := ih function (.of_payload (by simp)) position scope
      have inner := renderAll_declares (each arguments (.of_payload (by simp))) position
      have both := first.thread (inner _)
      rw [← Term.calleeParts_of_not_remote notRemote] at both
      exact both
    | @caseOf a value clauses =>
      refine .of_construct rfl (by decide) ?_
      have first := ih value (.of_payload (by simp)) position scope
      exact first.thread (renderArms_declares (inList clauses (.of_payload (by simp))) _)
    | @ifOf a clauses =>
      refine .of_construct rfl (by decide) ?_
      exact renderConditions_declares (inList clauses (.of_payload (by simp))) position scope
    | @receive a clauses =>
      refine .of_construct rfl (by decide) ?_
      exact renderArms_declares (inList clauses (.of_payload (by simp))) scope
    | @receiveAfter a timeout clauses after =>
      refine .of_construct rfl (by decide) ?_
      have arms := renderArms_declares (inList clauses (.of_payload (by simp))) scope
      have time := ih timeout (.of_payload (by simp)) position scope
      have body := renderAll_declares (each after (.of_payload (by simp))) position
      -- No clause was taken when the time is over, so the clauses stand beside the rest.
      have both := time.thread (body _)
      have three := arms.beside both
      rw [← Scope.union_assoc] at three
      exact three

end

/-- Declared names in closed form: they pin nothing, and they are the names that the term binds,
less those that were bound before. Of siblings, it is the names that any of them binds. -/
theorem mem_declared_iff_binds (layout : Layout) (position : Position) (scope : Scope) :
    (∀ t : Term,
      let declared := ((Expr.ofTerm t).render layout position scope).declared
      declared.pinning = false ∧ ∀ name, name ∈ declared ↔ t.Binds name ∧ name ∉ scope) ∧
    (∀ terms : List Term,
      let declared := (Expr.renderAll layout (Expr.ofTerms terms) position scope).declared
      declared.pinning = false ∧
        ∀ name, name ∈ declared ↔ (∃ t ∈ terms, t.Binds name) ∧ name ∉ scope) := by
  constructor
  · intro t
    have declares := declaresBound layout t position scope
    refine ⟨declares.free, fun name => ?_⟩
    simpa using declares.mem_iff name
  · intro terms
    have declares := renderAll_declares (fun t (_ : t ∈ terms) => declaresBound layout t)
      position scope
    rw [← Expr.ofTerms_eq_map] at declares
    exact ⟨declares.free, declares.mem_iff⟩

end Legible
