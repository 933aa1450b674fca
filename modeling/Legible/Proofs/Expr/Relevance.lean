import Legible.Proofs.Expr.Congruence

/-!
What of a scope a rendering depends on.

Two scopes that pin alike and hold the same of the names that a term mentions give the same
rendering: names are looked up for variables alone, and both runs declare the same on the way.
-/

set_option autoImplicit false

namespace Legible

def Term.variable? : Term → Option String
  | .tuple [.atom tag, _, .atom name] =>
    if tag = Construct.variable.tag then some (Spelling.ofVariable name) else none
  | _ => none

/-- The spelled names of all variables in a term, wherever they stand. -/
def Term.variables (t : Term) : List String :=
  t.subterms.filterMap Term.variable?

theorem Term.spelled_mem_variables {a t : Term} {name : String}
    (inside : Construct.variable.term a [.atom name] ∈ t.subterms) :
    Spelling.ofVariable name ∈ t.variables :=
  List.mem_filterMap.2 ⟨_, inside, rfl⟩

/-- Scopes that pin alike and hold the same of some names. -/
structure Scope.AgreeOn (names : List String) (left right : Scope) : Prop where
  pinning : left.pinning = right.pinning
  mem_iff : ∀ name ∈ names, name ∈ left ↔ name ∈ right

namespace Scope.AgreeOn

variable {names : List String} {left right : Scope}

theorem refl (names : List String) (scope : Scope) : AgreeOn names scope scope :=
  ⟨rfl, fun _ _ => Iff.rfl⟩

theorem union (agree : AgreeOn names left right) (declared : Scope) :
    AgreeOn names (left ∪ declared) (right ∪ declared) where
  pinning := agree.pinning
  mem_iff name member := by
    rw [mem_union, mem_union, agree.mem_iff name member]

theorem withPinning (agree : AgreeOn names left right) (pinning : Bool) :
    AgreeOn names (left.withPinning pinning) (right.withPinning pinning) :=
  ⟨rfl, agree.mem_iff⟩

theorem thread (agree : AgreeOn names left right) (declared : Scope) :
    AgreeOn names (left.thread declared) (right.thread declared) := by
  -- Both threads go the same way, since the scopes pin alike.
  unfold Scope.thread
  rw [agree.pinning]
  split
  · exact agree
  · exact agree.union declared

theorem patternScope (agree : AgreeOn names left right) (position : Position) (declared : Scope) :
    AgreeOn names (Expr.patternScope position left declared)
      (Expr.patternScope position right declared) := by
  cases position with
  | expression => exact (agree.union declared).withPinning true
  | pattern => exact agree.thread declared

theorem ofVariable_eq (agree : AgreeOn names left right) {name : String}
    (mentioned : Spelling.ofVariable name ∈ names) :
    Rendering.ofVariable name left = Rendering.ofVariable name right := by
  unfold Rendering.ofVariable
  simp only [agree.mem_iff _ mentioned, agree.pinning]

end Scope.AgreeOn

def ViewCongruence.agreeOn (names : List String) : ViewCongruence :=
  { ViewCongruence.equal with
    SameScope := Scope.AgreeOn names
    scope_of_names := fun same => same ▸ .refl names _
    thread := fun agree same => same ▸ agree.thread _
    join := fun agree same => same ▸ agree.union _
    withPinning := fun pinning _ _ agree => agree.withPinning pinning
    patternScope := fun positions agree same => positions ▸ same ▸ agree.patternScope _ _ }

theorem Related.eq {layout : Layout} {names : List String} {left right : Rendering}
    (related : Related (.equal layout) (.agreeOn names) left right) : left = right := by
  obtain ⟨text, declared, warnings⟩ := related
  cases left
  cases right
  congr

/-- Names that do not occur in a term do not matter: scopes that differ in nothing else give one
rendering. -/
theorem render_eq_of_agreeOn_variables (layout : Layout) (t : Term) (position : Position)
    {scope scope' : Scope} (agree : Scope.AgreeOn t.variables scope scope') :
    (Expr.ofTerm t).render layout position scope =
      (Expr.ofTerm t).render layout position scope' := by
  have every : (Expr.ofTerm t).Every
      (Expr.SelfRelated (.equal layout) (.agreeOn t.variables)) := by
    refine .of_mentions _ (fun name mentions => ⟨fun _ _ => rfl, rfl, ?_⟩) fun e noVariable =>
      ⟨fun _ _ => rfl, rfl, fun name eq => absurd eq (noVariable name)⟩
    rintro _ ⟨⟩ scope scope' agree
    obtain ⟨a, inside⟩ := Expr.mem_subterms_of_mentions t mentions
    rw [Scope.AgreeOn.ofVariable_eq agree (Term.spelled_mem_variables inside)]
    exact ⟨rfl, rfl, rfl⟩
  exact Related.eq ((Expr.ofTerm t).congruent every rfl agree)

/-- A match that pins a bound name, in scopes that differ in a name it does not mention. -/
theorem render_eq_of_agreeOn_variables_matching :
    let t := Construct.matching.term (.list [])
      [Construct.variable.term (.list []) [.atom "X"],
        Construct.variable.term (.list []) [.atom "Y"]]
    let scope : Scope := .ofNames (.ofList ["x", "z"])
    let scope' : Scope := .ofNames (.ofList ["x"])
    Scope.AgreeOn t.variables scope scope' ∧
      (Expr.ofTerm t).render {} .expression scope =
        (Expr.ofTerm t).render {} .expression scope' := by
  intro t scope scope'
  have agree : Scope.AgreeOn t.variables scope scope' := ⟨rfl, by decide⟩
  exact ⟨agree, render_eq_of_agreeOn_variables {} t .expression agree⟩

end Legible
