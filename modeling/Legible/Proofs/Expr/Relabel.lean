import Legible.Proofs.Expr.Related

/-!
Expressions whose warnings are changed.

The reason why a term has no form of its own, and its line, are kept for the warning alone: what
changes them changes the warnings of a rendering in the same way, and nothing else.
-/

set_option autoImplicit false

namespace Legible

@[simps]
def Rendering.mapWarnings (f : Warning → Warning) (r : Rendering) : Rendering :=
  { r with warnings := r.warnings.map f }

@[simp] theorem Rendering.mapWarnings_mk (f : Warning → Warning) (text : String)
    (declared : Scope) (warnings : List Warning) :
    mapWarnings f ⟨text, declared, warnings⟩ = ⟨text, declared, warnings.map f⟩ :=
  rfl

theorem Rendering.parts_eq_of_mapWarnings_eq {f : Warning → Warning} {left right : Rendering}
    (same : left.mapWarnings f = right.mapWarnings f) :
    left.text = right.text ∧ left.declared = right.declared ∧
      left.warnings.map f = right.warnings.map f := by
  simpa [mapWarnings] using same

@[simps]
def Sequence.mapWarnings (f : Warning → Warning) (s : Sequence) : Sequence :=
  { s with warnings := s.warnings.map f }

@[simps]
def Alternative.mapWarnings (f : Warning → Warning) (a : Alternative) : Alternative :=
  { a with warnings := a.warnings.map f }

@[simps]
def ClauseRendering.mapWarnings (f : Warning → Warning) (c : ClauseRendering) : ClauseRendering :=
  { c with warnings := c.warnings.map f }

theorem Sequence.cons_mapWarnings (f : Warning → Warning) (first : Rendering) (rest : Sequence) :
    cons (first.mapWarnings f) (rest.mapWarnings f) = (cons first rest).mapWarnings f := by
  simp [cons, mapWarnings]

@[simp] theorem Sequence.join_mapWarnings (f : Warning → Warning) (separator : String)
    (sequence : Sequence) :
    (sequence.mapWarnings f).join separator = (sequence.join separator).mapWarnings f :=
  rfl

namespace Expr

variable (f : Warning → Warning)

mutual

def mapWarnings : Expr → Expr
  | .unsupported cause line => .unsupported (f ⟨cause, line⟩).cause (f ⟨cause, line⟩).line
  | .list elements => .list (mapAll elements)
  | .openList elements tail => .openList (mapAll elements) tail.mapWarnings
  | .tuple elements => .tuple (mapAll elements)
  | .map entries => .map (mapEntries entries)
  | .mapUpdate source entries => .mapUpdate source.mapWarnings (mapEntries entries)
  | .matching pattern value => .matching pattern.mapWarnings value.mapWarnings
  | .binaryOp operator left right => .binaryOp operator left.mapWarnings right.mapWarnings
  | .unaryOp operator operand => .unaryOp operator operand.mapWarnings
  | .localCall function arguments => .localCall function (mapAll arguments)
  | .remoteCall module function arguments => .remoteCall module function (mapAll arguments)
  | .dynamicCall module function arguments =>
    .dynamicCall module.mapWarnings function.mapWarnings (mapAll arguments)
  | .valueCall function arguments => .valueCall function.mapWarnings (mapAll arguments)
  | .closure clauses => .closure (mapClauses clauses)
  | .dynamicCapture module function arity =>
    .dynamicCapture module.mapWarnings function.mapWarnings arity.mapWarnings
  | .caseOf value clauses => .caseOf value.mapWarnings (mapClauses clauses)
  | .ifOf clauses => .ifOf (mapClauses clauses)
  | .receive clauses => .receive (mapClauses clauses)
  | .receiveAfter clauses timeout after =>
    .receiveAfter (mapClauses clauses) timeout.mapWarnings (mapAll after)
  | .block body => .block (mapAll body)
  | e => e

def mapAll : List Expr → List Expr
  | [] => []
  | e :: rest => e.mapWarnings :: mapAll rest

def mapEntry : Entry → Entry
  | .pair key value => .pair key.mapWarnings value.mapWarnings
  | .single element => .single element.mapWarnings

def mapEntries : List Entry → List Entry
  | [] => []
  | entry :: rest => mapEntry entry :: mapEntries rest

def mapGuards : List (List Expr) → List (List Expr)
  | [] => []
  | tests :: rest => mapAll tests :: mapGuards rest

def mapClause : Clause → Clause
  | .clause patterns guards body => .clause (mapAll patterns) (mapGuards guards) (mapAll body)
  | .malformed => .malformed

def mapClauses : List Clause → List Clause
  | [] => []
  | clause :: rest => mapClause clause :: mapClauses rest

end

@[simp] theorem mapAll_eq_map (es : List Expr) : mapAll f es = es.map (mapWarnings f) := by
  induction es with
  | nil => rfl
  | cons e rest ih => simp [mapAll, ih]

@[simp] theorem mapEntries_eq_map (entries : List Entry) :
    mapEntries f entries = entries.map (mapEntry f) := by
  induction entries with
  | nil => rfl
  | cons entry rest ih => simp [mapEntries, ih]

@[simp] theorem mapGuards_eq_map (guards : List (List Expr)) :
    mapGuards f guards = guards.map (List.map (mapWarnings f)) := by
  induction guards with
  | nil => rfl
  | cons tests rest ih => simp [mapGuards, ih]

@[simp] theorem mapClauses_eq_map (clauses : List Clause) :
    mapClauses f clauses = clauses.map (mapClause f) := by
  induction clauses with
  | nil => rfl
  | cons clause rest ih => simp [mapClauses, ih]

@[simp] theorem isInfix_mapWarnings (e : Expr) : (e.mapWarnings f).isInfix = e.isInfix := by
  cases e with
  | binaryOp operator => cases operator <;> rfl
  | _ => rfl

@[simp] theorem isPrefix_mapWarnings (e : Expr) : (e.mapWarnings f).isPrefix = e.isPrefix := by
  cases e with
  | unaryOp operator => cases operator <;> rfl
  | _ => rfl

@[simp] theorem operand_mapWarnings (e : Expr) (text : String) :
    (e.mapWarnings f).operand text = e.operand text := by
  simp [operand]

@[simp] theorem prefixOperand_mapWarnings (e : Expr) (text : String) :
    (e.mapWarnings f).prefixOperand text = e.prefixOperand text := by
  simp [prefixOperand]

theorem mapWarnings_cons (head tail : Expr) :
    (cons head tail).mapWarnings f = cons (head.mapWarnings f) (tail.mapWarnings f) := by
  cases tail <;> simp [cons, mapWarnings]

theorem mapWarnings_ofVariable (name : String) (scope : Scope) :
    (Rendering.ofVariable name scope).mapWarnings f = Rendering.ofVariable name scope := by
  have silent := warnings_ofVariable name scope
  generalize Rendering.ofVariable name scope = rendered at silent
  cases rendered
  cases silent
  rfl

theorem alternative_mapWarnings (tests : List Expr) (rendered : List Rendering) :
    alternative (tests.map (mapWarnings f)) (rendered.map (Rendering.mapWarnings f)) =
      (alternative tests rendered).mapWarnings f := by
  simp [alternative, Alternative.mapWarnings, Rendering.mapWarnings, List.zipWith_map,
    List.map_flatMap, List.flatMap_map]

section
variable (alternatives : List Alternative)

@[simp] theorem guard_mapWarnings :
    Alternative.guard (alternatives.map (Alternative.mapWarnings f)) =
      Alternative.guard alternatives := by
  simp [Alternative.guard, Alternative.mapWarnings, Function.comp_def]

@[simp] theorem condition_mapWarnings :
    Alternative.condition (alternatives.map (Alternative.mapWarnings f)) =
      Alternative.condition alternatives := by
  match alternatives with
  | [] | [_] => rfl
  | first :: second :: rest =>
    simp only [Alternative.condition, List.map_cons, List.map_map]
    rfl

@[simp] theorem warningsOf_mapWarnings :
    Alternative.warningsOf (alternatives.map (Alternative.mapWarnings f)) =
      (Alternative.warningsOf alternatives).map f := by
  simp [Alternative.warningsOf, Alternative.mapWarnings, List.map_flatMap, List.flatMap_map]

end

variable {f} {layout : Layout}

def MapsWarnings (f : Warning → Warning) (layout : Layout) (e : Expr) : Prop :=
  ∀ (position : Position) (scope : Scope),
    (e.mapWarnings f).render layout position scope =
      (e.render layout position scope).mapWarnings f

section
variable (position : Position) (scope : Scope)

theorem renderAll_mapWarnings {es : List Expr} (each : ∀ e ∈ es, e.MapsWarnings f layout) :
    renderAll layout (es.map (mapWarnings f)) position scope =
      (renderAll layout es position scope).mapWarnings f := by
  induction es generalizing scope with
  | nil => rfl
  | cons e rest ih =>
    rw [List.forall_mem_cons] at each
    rw [List.map_cons, renderAll, renderAll, each.1, ih _ each.2, Sequence.cons_mapWarnings]
    rfl

theorem renderEntry_mapWarnings {entry : Entry}
    (each : ∀ e ∈ entry.children, e.MapsWarnings f layout) :
    renderEntry layout (mapEntry f entry) position scope =
      (renderEntry layout entry position scope).mapWarnings f := by
  cases entry with
  | pair key value =>
    simp only [Entry.children, List.forall_mem_cons] at each
    rw [mapEntry, renderEntry, renderEntry, each.1, each.2.1]
    simp
  | single element => exact each element (List.mem_singleton_self _) position scope

theorem renderEntries_mapWarnings {entries : List Entry}
    (each : ∀ e ∈ entries.flatMap Entry.children, e.MapsWarnings f layout) :
    renderEntries layout (entries.map (mapEntry f)) position scope =
      (renderEntries layout entries position scope).mapWarnings f := by
  induction entries generalizing scope with
  | nil => rfl
  | cons entry rest ih =>
    rw [List.flatMap_cons, List.forall_mem_append] at each
    rw [List.map_cons, renderEntries, renderEntries, renderEntry_mapWarnings _ _ each.1,
      ih _ each.2, Sequence.cons_mapWarnings]
    rfl

theorem renderTests_mapWarnings {tests : List Expr}
    (each : ∀ e ∈ tests, e.MapsWarnings f layout) :
    renderTests layout (tests.map (mapWarnings f)) position scope =
      (renderTests layout tests position scope).map (Rendering.mapWarnings f) := by
  induction tests with
  | nil => rfl
  | cons test rest ih =>
    rw [List.forall_mem_cons] at each
    rw [List.map_cons, renderTests, renderTests, each.1, ih each.2, List.map_cons]

theorem renderGuards_mapWarnings {guards : List (List Expr)}
    (each : ∀ e ∈ guards.flatten, e.MapsWarnings f layout) :
    renderGuards layout (guards.map (List.map (mapWarnings f))) position scope =
      (renderGuards layout guards position scope).map (Alternative.mapWarnings f) := by
  induction guards with
  | nil => rfl
  | cons tests rest ih =>
    rw [List.flatten_cons, List.forall_mem_append] at each
    rw [List.map_cons, renderGuards, renderGuards, renderTests_mapWarnings _ _ each.1,
      ih each.2, alternative_mapWarnings, List.map_cons]

theorem renderCondition_mapWarnings {clause : Clause}
    (each : ∀ e ∈ clause.children, e.MapsWarnings f layout) :
    renderCondition layout (mapClause f clause) position scope =
      (renderCondition layout clause position scope).mapWarnings f := by
  cases clause with
  | clause patterns guards body =>
    simp only [Clause.children, List.forall_mem_append] at each
    obtain ⟨⟨-, inGuards⟩, inBody⟩ := each
    simp [mapClause, renderCondition, renderGuards_mapWarnings _ _ inGuards,
      renderAll_mapWarnings _ _ inBody]
  | malformed => rfl

theorem renderConditions_mapWarnings {clauses : List Clause}
    (each : ∀ e ∈ clauses.flatMap Clause.children, e.MapsWarnings f layout) :
    renderConditions layout (clauses.map (mapClause f)) position scope =
      (renderConditions layout clauses position scope).mapWarnings f := by
  induction clauses with
  | nil => rfl
  | cons clause rest ih =>
    rw [List.flatMap_cons, List.forall_mem_append] at each
    rw [List.map_cons, renderConditions, renderConditions, renderCondition_mapWarnings _ _ each.1,
      ih each.2, Sequence.cons_mapWarnings]

end

theorem renderClause_mapWarnings (kind : ClauseKind) (outer : Scope) {clause : Clause}
    (each : ∀ e ∈ clause.children, e.MapsWarnings f layout) :
    renderClause layout kind (mapClause f clause) outer =
      (renderClause layout kind clause outer).map (ClauseRendering.mapWarnings f) := by
  cases clause with
  | clause patterns guards body =>
    simp only [Clause.children, List.forall_mem_append] at each
    obtain ⟨⟨inPatterns, inGuards⟩, inBody⟩ := each
    simp [mapClause, renderClause, renderAll_mapWarnings _ _ inPatterns,
      renderGuards_mapWarnings _ _ inGuards, renderAll_mapWarnings _ _ inBody,
      ClauseRendering.mapWarnings]
  | malformed => rfl

theorem renderArms_mapWarnings (kind : ClauseKind) (outer : Scope) {clauses : List Clause}
    (each : ∀ e ∈ clauses.flatMap Clause.children, e.MapsWarnings f layout) :
    renderArms layout kind (clauses.map (mapClause f)) outer =
      (renderArms layout kind clauses outer).mapWarnings f := by
  induction clauses with
  | nil => rfl
  | cons clause rest ih =>
    rw [List.flatMap_cons, List.forall_mem_append] at each
    rw [List.map_cons, renderArms, renderArms, renderClause_mapWarnings kind outer each.1,
      ih each.2]
    -- A malformed clause gives no rendering and is left out of both.
    cases renderClause layout kind clause outer with
    | some => simp [Sequence.cons, Sequence.mapWarnings, ClauseRendering.guardedHead]
    | none => rfl

/-- Changing what an expression warns of changes the warnings of its rendering and nothing else. -/
theorem render_mapWarnings (f : Warning → Warning) (layout : Layout) (e : Expr) :
    e.MapsWarnings f layout := by
  induction e using children_induction with
  | _ e each =>
    intro position scope
    -- Each case opens both renderings to their parts and rewrites the renderings of the children.
    cases e with
    | unsupported | placeholder | atom | integer | float | bareNumber | char | string
    | localCapture | remoteCapture => rfl
    | «variable» name => exact (mapWarnings_ofVariable f name scope).symm
    | list elements | tuple elements | localCall _ elements | remoteCall _ _ elements
    | block elements =>
      simp only [children] at each
      change Rendering.mk _ _ _ = Rendering.mapWarnings f (.mk _ _ _)
      simp [renderAll_mapWarnings _ _ each]
    | openList elements tail =>
      simp only [children, List.forall_mem_append, List.forall_mem_singleton] at each
      change Rendering.mk _ _ _ = Rendering.mapWarnings f (.mk _ _ _)
      simp [renderAll_mapWarnings _ _ each.1, each.2 _ _]
    | map entries =>
      simp only [children] at each
      change Rendering.mk _ _ _ = Rendering.mapWarnings f (.mk _ _ _)
      simp [renderEntries_mapWarnings _ _ each]
    | mapUpdate source entries =>
      simp only [children, List.forall_mem_cons] at each
      change Rendering.mk _ _ _ = Rendering.mapWarnings f (.mk _ _ _)
      simp [each.1 _ _, renderEntries_mapWarnings _ _ each.2]
    | matching left right | binaryOp _ left right =>
      have first := each left (by simp [children])
      have second := each right (by simp [children])
      change Rendering.mk _ _ _ = Rendering.mapWarnings f (.mk _ _ _)
      simp [first _ _, second _ _]
    | unaryOp _ operand =>
      have inner := each operand (by simp [children])
      change Rendering.mk _ _ _ = Rendering.mapWarnings f (.mk _ _ _)
      simp [inner _ _]
    | dynamicCall module function arguments =>
      simp only [children, List.forall_mem_cons] at each
      obtain ⟨first, second, rest⟩ := each
      change Rendering.mk _ _ _ = Rendering.mapWarnings f (.mk _ _ _)
      simp [first _ _, second _ _, renderAll_mapWarnings _ _ rest]
    | valueCall function arguments =>
      simp only [children, List.forall_mem_cons] at each
      change Rendering.mk _ _ _ = Rendering.mapWarnings f (.mk _ _ _)
      simp [each.1 _ _, renderAll_mapWarnings _ _ each.2]
    | closure clauses | receive clauses =>
      simp only [children] at each
      change Rendering.mk _ _ _ = Rendering.mapWarnings f (.mk _ _ _)
      simp [renderArms_mapWarnings _ _ each]
    | dynamicCapture module function arity =>
      have first := each module (by simp [children])
      have second := each function (by simp [children])
      have third := each arity (by simp [children])
      change Rendering.mk _ _ _ = Rendering.mapWarnings f (.mk _ _ _)
      simp [first _ _, second _ _, third _ _]
    | caseOf value clauses =>
      simp only [children, List.forall_mem_cons] at each
      change Rendering.mk _ _ _ = Rendering.mapWarnings f (.mk _ _ _)
      simp [each.1 _ _, renderArms_mapWarnings _ _ each.2]
    | ifOf clauses =>
      simp only [children] at each
      change Rendering.mk _ _ _ = Rendering.mapWarnings f (.mk _ _ _)
      simp [renderConditions_mapWarnings _ _ each]
    | receiveAfter clauses timeout after =>
      simp only [children, List.forall_mem_append, List.forall_mem_cons] at each
      obtain ⟨inClauses, time, inAfter⟩ := each
      change Rendering.mk _ _ _ = Rendering.mapWarnings f (.mk _ _ _)
      simp [renderArms_mapWarnings _ _ inClauses, time _ _, renderAll_mapWarnings _ _ inAfter]

end Expr

end Legible
