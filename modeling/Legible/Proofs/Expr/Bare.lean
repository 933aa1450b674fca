import Legible.Expr.Render
import Legible.Proofs.Spelling.Atom

/-!
Names and arities in calls and captures, in their constructs or bare.

A name in its construct is written like the bare atom, and an arity like the bare number, wherever a
call or a capture takes them for what they are. Two places do not. The module and the function of a
call are names only if both are, and beside a part that is computed a bare atom has no form of its
own. The arity of a capture that is computed is a literal in its construct and is reported as it is
when it stands bare, so a float may lose its point.
-/

set_option autoImplicit false

namespace Legible

namespace Term

inductive BaresName : Term → Term → Prop
  | same (t : Term) : BaresName t t
  | bare (a : Term) (name : String) : BaresName (Construct.atom.term a [.atom name]) (.atom name)

inductive BaresArity : Term → Term → Prop
  | same (t : Term) : BaresArity t t
  | bare (a : Term) (n : Number) : BaresArity (Construct.integer.term a [.number n]) (.number n)

/-- A call or a capture, and one with some of its names and its arity bare. -/
inductive Bares : Term → Term → Prop
  | call {a function function' arguments : Term} : BaresName function function' →
      Bares (Construct.call.term a [function, arguments])
        (Construct.call.term a [function', arguments])
  | remoteCall {a b module module' function function' arguments : Term} :
      BaresName module module' → BaresName function function' →
      Bares (Construct.call.term a [Construct.remote.term b [module, function], arguments])
        (Construct.call.term a [Construct.remote.term b [module', function'], arguments])
  | localCapture {a function function' arity arity' : Term} :
      BaresName function function' → BaresArity arity arity' →
      Bares (Construct.funValue.term a [.tuple [.atom "function", function, arity]])
        (Construct.funValue.term a [.tuple [.atom "function", function', arity']])
  | remoteCapture {a module module' function function' arity arity' : Term} :
      BaresName module module' → BaresName function function' → BaresArity arity arity' →
      Bares (Construct.funValue.term a [.tuple [.atom "function", module, function, arity]])
        (Construct.funValue.term a [.tuple [.atom "function", module', function', arity']])

/-- A call with the module or the function bare beside a part that is computed. -/
inductive ExposesName : Term → Term → Prop
  | module {a b c function : Term} {name : String} {arguments : List Term} :
      function.name? = none →
      ExposesName
        (Construct.call.term a
          [Construct.remote.term b [Construct.atom.term c [.atom name], function], .list arguments])
        (Construct.call.term a [Construct.remote.term b [.atom name, function], .list arguments])
  | function {a b c module : Term} {name : String} {arguments : List Term} :
      module.name? = none →
      ExposesName
        (Construct.call.term a
          [Construct.remote.term b [module, Construct.atom.term c [.atom name]], .list arguments])
        (Construct.call.term a [Construct.remote.term b [module, .atom name], .list arguments])

/-- A capture with a bare arity that is reported otherwise than as a literal, as floats may be. -/
inductive ExposesArity : Term → Term → Prop
  | arity {a b module module' function function' : Term} {n : Number} :
      BaresName module module' → BaresName function function' → n.text ≠ n.literal →
      ExposesArity
        (Construct.funValue.term a
          [.tuple [.atom "function", module, function, Construct.integer.term b [.number n]]])
        (Construct.funValue.term a [.tuple [.atom "function", module', function', .number n]])

namespace BaresName

variable {t t' : Term} (bares : BaresName t t')
include bares

theorem name?_eq : t'.name? = t.name? := by
  cases bares with
  | same => rfl
  | bare a name => rfl

theorem eq_of_nameless (nameless : t.name? = none) : t' = t := by
  cases bares with
  | same => rfl
  | bare a name => cases nameless

theorem capturePart_eq :
    Expr.capturePart t' (Expr.ofTerm t') = Expr.capturePart t (Expr.ofTerm t) := by
  cases bares with
  | same => rfl
  | bare a name => rfl

end BaresName

theorem BaresArity.count?_eq {t t' : Term} (bares : BaresArity t t') : t'.count? = t.count? := by
  cases bares with
  | same => rfl
  | bare a n => cases n <;> rfl

theorem ExposesName.construct?_eq {t t' : Term} (exposed : t.ExposesName t') :
    t.construct? = some .call := by
  cases exposed with
  | module => exact construct?_term .call _ _ rfl
  | function => exact construct?_term .call _ _ rfl

theorem ExposesArity.exists_eq {t t' : Term} (exposed : t.ExposesArity t') :
    ∃ a b module function n, n.text ≠ n.literal ∧ t = Construct.funValue.term a
      [.tuple [.atom "function", module, function, Construct.integer.term b [.number n]]] := by
  cases exposed with
  | arity _ _ differ => exact ⟨_, _, _, _, _, differ, rfl⟩

end Term

namespace Expr

section
variable {a module module' function function' arity arity' : Term}

theorem ofTerm_bareCall (bares : Term.BaresName function function') (arguments : Term) :
    ofTerm (Construct.call.term a [function', arguments]) =
      ofTerm (Construct.call.term a [function, arguments]) := by
  cases bares with
  | same => rfl
  | bare b name =>
    cases members : arguments.list? with
    | none => rw [ofTerm_malformed (.call members), ofTerm_malformed (.call members)]
    | some elements =>
      obtain rfl := Term.list?_eq_some_iff.1 members
      rw [ofTerm_localCall rfl, ofTerm_localCall rfl]

/-- Both parts are names, or both stay as they are, or one is exposed. -/
theorem ofTerm_bareRemoteCall (baresModule : Term.BaresName module module')
    (bares : Term.BaresName function function') (b arguments : Term)
    (covered : ¬ Term.ExposesName
      (Construct.call.term a [Construct.remote.term b [module, function], arguments])
      (Construct.call.term a [Construct.remote.term b [module', function'], arguments])) :
    ofTerm (Construct.call.term a [Construct.remote.term b [module', function'], arguments]) =
      ofTerm (Construct.call.term a [Construct.remote.term b [module, function], arguments]) := by
  cases members : arguments.list? with
  | none => rw [ofTerm_malformed (.call members), ofTerm_malformed (.call members)]
  | some elements =>
    obtain rfl := Term.list?_eq_some_iff.1 members
    cases moduleName : module.name? with
    | none =>
      obtain rfl := baresModule.eq_of_nameless moduleName
      cases bares with
      | same => rfl
      | bare c name => exact absurd (.function moduleName) covered
    | some moduleName' =>
      cases name : function.name? with
      | none =>
        obtain rfl := bares.eq_of_nameless name
        cases baresModule with
        | same => rfl
        | bare c name' => exact absurd (.module name) covered
      | some =>
        rw [ofTerm_remoteCall moduleName name, ofTerm_remoteCall
          (baresModule.name?_eq.trans moduleName) (bares.name?_eq.trans name)]

theorem ofTerm_bareLocalCapture (bares : Term.BaresName function function')
    (baresArity : Term.BaresArity arity arity') :
    ofTerm (Construct.funValue.term a [.tuple [.atom "function", function', arity']]) =
      ofTerm (Construct.funValue.term a [.tuple [.atom "function", function, arity]]) := by
  by_cases unknown : function.name? = none ∨ arity.count? = none
  · have unknown' : function'.name? = none ∨ arity'.count? = none := by
      rwa [bares.name?_eq, baresArity.count?_eq]
    rw [ofTerm_malformed (.localCapture unknown), ofTerm_malformed (.localCapture unknown')]
  · rw [not_or] at unknown
    obtain ⟨name, named⟩ := Option.ne_none_iff_exists'.1 unknown.1
    obtain ⟨count, counted⟩ := Option.ne_none_iff_exists'.1 unknown.2
    rw [ofTerm_localCapture named counted,
      ofTerm_localCapture (bares.name?_eq.trans named) (baresArity.count?_eq.trans counted)]

end

section
variable (layout : Layout) (position : Position) (scope : Scope)

theorem render_dynamicCapture (module function arity : Expr) :
    (Expr.dynamicCapture module function arity).render layout position scope =
      let first := module.render layout position scope
      let second := function.render layout position scope
      let third := arity.render layout position scope
      { text := "Function.capture(" ++ first.text ++ ", " ++ second.text ++ ", " ++ third.text ++ ")"
        declared := ∅
        warnings := first.warnings ++ second.warnings ++ third.warnings } := rfl

theorem render_dynamicCall (module function : Expr) (arguments : List Expr) :
    (Expr.dynamicCall module function arguments).render layout position scope =
      let first := module.render layout position scope
      let afterFirst := scope.thread first.declared
      let second := function.render layout position afterFirst
      let inner :=
        (renderAll layout arguments position (afterFirst.thread second.declared)).join ", "
      { text := "apply(" ++ first.text ++ ", " ++ second.text ++ ", [" ++ inner.text ++ "])"
        declared := first.declared ∪ second.declared ∪ inner.declared
        warnings := first.warnings ++ second.warnings ++ inner.warnings } := rfl

/-- An atom on its own has no form, so a placeholder is shown for it and it is warned of. -/
theorem render_bareAtom (name : String) :
    (ofTerm (.atom name)).render layout position scope =
      { text := Placeholder.code.text
        declared := ∅
        warnings := [⟨.ofExpression (.atom name), none⟩] } := rfl

theorem render_taggedAtom (c : Term) (name : String) :
    (ofTerm (Construct.atom.term c [.atom name])).render layout position scope =
      .plain (Spelling.ofAtom name) := rfl

theorem render_taggedArity (b : Term) (n : Number) :
    (capturePart (Construct.integer.term b [.number n])
      (ofTerm (Construct.integer.term b [.number n]))).render layout position scope =
        .plain n.literal := rfl

theorem render_bareArity (n : Number) :
    (capturePart (.number n) (ofTerm (.number n))).render layout position scope = .plain n.text :=
  rfl

section
variable {a module module' function function' arity arity' : Term}
variable (baresModule : Term.BaresName module module') (bares : Term.BaresName function function')
include baresModule bares

theorem render_bareRemoteCapture (baresArity : Term.BaresArity arity arity')
    (covered : ¬ Term.ExposesArity
      (Construct.funValue.term a [.tuple [.atom "function", module, function, arity]])
      (Construct.funValue.term a [.tuple [.atom "function", module', function', arity']])) :
    (ofTerm (Construct.funValue.term a
        [.tuple [.atom "function", module', function', arity']])).render layout position scope =
      (ofTerm (Construct.funValue.term a
        [.tuple [.atom "function", module, function, arity]])).render layout position scope := by
  by_cases unknown : module.name? = none ∨ function.name? = none ∨ arity.count? = none
  · have unknown' : module'.name? = none ∨ function'.name? = none ∨ arity'.count? = none := by
      rwa [baresModule.name?_eq, bares.name?_eq, baresArity.count?_eq]
    rw [ofTerm_dynamicCapture unknown, ofTerm_dynamicCapture unknown', baresModule.capturePart_eq,
      bares.capturePart_eq]
    cases baresArity with
    | same => rfl
    | bare b n =>
      have alike : n.text = n.literal :=
        Decidable.byContradiction fun differ => covered (.arity baresModule bares differ)
      rw [render_dynamicCapture, render_dynamicCapture, render_taggedArity, render_bareArity, alike]
  · simp only [not_or] at unknown
    obtain ⟨moduleKnown, known, counts⟩ := unknown
    obtain ⟨moduleName, moduleNamed⟩ := Option.ne_none_iff_exists'.1 moduleKnown
    obtain ⟨name, named⟩ := Option.ne_none_iff_exists'.1 known
    obtain ⟨count, counted⟩ := Option.ne_none_iff_exists'.1 counts
    rw [ofTerm_remoteCapture moduleNamed named counted,
      ofTerm_remoteCapture (baresModule.name?_eq.trans moduleNamed)
        (bares.name?_eq.trans named) (baresArity.count?_eq.trans counted)]

end

theorem render_exposedArity {t t' : Term} (exposed : t.ExposesArity t') :
    let rendered := fun t => (ofTerm t).render layout position scope
    (rendered t').text ≠ (rendered t).text ∧ (rendered t').declared = (rendered t).declared ∧
      (rendered t').warnings = (rendered t).warnings := by
  intro rendered
  cases exposed with
  | @arity a b module module' function function' n baresModule bares differ =>
    -- Only a float is reported otherwise than it is written, and no float counts parameters.
    have uncounted : n.integer? = none := by
      cases n with
      | float => rfl
      | integer | beyond => exact absurd rfl differ
    have uncounted' : (Term.number n).count? = none := by
      cases n with
      | float => rfl
      | integer | beyond => cases uncounted <;> rfl
    have uncountedTagged : (Construct.integer.term b [.number n]).count? = none := uncounted
    simp only [rendered]
    rw [ofTerm_dynamicCapture (.inr (.inr uncountedTagged)),
      ofTerm_dynamicCapture (.inr (.inr uncounted')), baresModule.capturePart_eq,
      bares.capturePart_eq, render_dynamicCapture, render_dynamicCapture, render_taggedArity,
      render_bareArity]
    refine ⟨?_, rfl, rfl⟩
    simpa only [Rendering.plain, ne_eq, String.append_left_inj, String.append_right_inj] using differ

theorem ofAtom_ne_placeholder (name : String) : Spelling.ofAtom name ≠ Placeholder.code.text := by
  intro same
  have read := Spelling.atomOf?_ofAtom name
  have unread : Spelling.atomOf? Placeholder.code.text = none := by decide
  rw [same, unread] at read
  cases read

theorem render_exposedName {t t' : Term} (exposed : t.ExposesName t') :
    let rendered := fun t => (ofTerm t).render layout position scope
    (rendered t').text ≠ (rendered t).text ∧ (rendered t').declared = (rendered t).declared ∧
      (rendered t').warnings ≠ (rendered t).warnings := by
  intro rendered
  -- The name declares nothing in either form, so the other parts are rendered in the same scopes.
  cases exposed with
  | @module a b c function name arguments nameless =>
    simp only [rendered, ofTerm_dynamicCall (.inr nameless), render_dynamicCall, render_bareAtom,
      render_taggedAtom, Rendering.plain]
    refine ⟨?_, trivial, by simp⟩
    simpa only [ne_eq, String.append_left_inj, String.append_right_inj] using
      (ofAtom_ne_placeholder name).symm
  | @function a b c module name arguments nameless =>
    simp only [rendered, ofTerm_dynamicCall (.inl nameless), render_dynamicCall, render_bareAtom,
      render_taggedAtom, Rendering.plain]
    refine ⟨?_, trivial, by simp⟩
    simpa only [ne_eq, String.append_left_inj, String.append_right_inj] using
      (ofAtom_ne_placeholder name).symm

end

/-- Names and the arity of a call or a capture can stand bare. The declared names never change. The
text changes, and with it the warnings, only if a name stands bare beside a part that is computed,
and the text alone only if the arity of a capture is a float that is reported otherwise than it is
written. -/
theorem render_bares {t t' : Term} (bares : t.Bares t') (layout : Layout) (position : Position)
    (scope : Scope) :
    let rendered := fun t => (ofTerm t).render layout position scope
    ((rendered t').text = (rendered t).text ↔ ¬ t.ExposesName t' ∧ ¬ t.ExposesArity t') ∧
      (rendered t').declared = (rendered t).declared ∧
      ((rendered t').warnings = (rendered t).warnings ↔ ¬ t.ExposesName t') := by
  intro rendered
  by_cases exposedName : t.ExposesName t'
  · obtain ⟨text, declared, warnings⟩ := render_exposedName layout position scope exposedName
    exact ⟨iff_of_false text fun covered => covered.1 exposedName, declared,
      iff_of_false warnings fun covered => covered exposedName⟩
  by_cases exposedArity : t.ExposesArity t'
  · obtain ⟨text, declared, warnings⟩ := render_exposedArity layout position scope exposedArity
    exact ⟨iff_of_false text fun covered => covered.2 exposedArity, declared,
      iff_of_true warnings exposedName⟩
  have same : rendered t' = rendered t := by
    cases bares with
    | call bares => exact congrArg (render layout · position scope) (ofTerm_bareCall bares _)
    | remoteCall baresModule bares =>
      exact congrArg (render layout · position scope)
        (ofTerm_bareRemoteCall baresModule bares _ _ exposedName)
    | localCapture bares baresArity =>
      exact congrArg (render layout · position scope) (ofTerm_bareLocalCapture bares baresArity)
    | remoteCapture baresModule bares baresArity =>
      exact render_bareRemoteCapture layout position scope baresModule bares baresArity exposedArity
  rw [same]
  exact ⟨iff_of_true rfl ⟨exposedName, exposedArity⟩, rfl, iff_of_true rfl exposedName⟩

/-- The name and the arity, which is no 64 bit integer, of a capture whose module is computed. -/
theorem render_bares_capture :
    let capture := fun name arity => Construct.funValue.term (.list [])
      [.tuple [.atom "function", Construct.variable.term (.list []) [.atom "M"], name, arity]]
    let t := capture (Construct.atom.term (.list []) [.atom "f"])
      (Construct.integer.term (.list []) [.number (.beyond "18446744073709551616")])
    let t' := capture (.atom "f") (.number (.beyond "18446744073709551616"))
    let rendered := fun t => (ofTerm t).render {} .expression ∅
    t.Bares t' ∧ (rendered t').text = (rendered t).text ∧
      (rendered t').declared = (rendered t).declared ∧
      (rendered t').warnings = (rendered t).warnings := by
  intro capture t t' rendered
  have bares : t.Bares t' := .remoteCapture (.same _) (.bare _ _) (.bare _ _)
  have coveredName : ¬ t.ExposesName t' := fun exposed => by
    have isCall := exposed.construct?_eq
    rw [Term.construct?_term .funValue _ _ rfl] at isCall
    cases isCall
  have coveredArity : ¬ t.ExposesArity t' := fun exposed => by
    obtain ⟨a, b, module, function, n, differ, same⟩ := exposed.exists_eq
    obtain rfl : .beyond "18446744073709551616" = n := by
      simp only [t, capture, Construct.term, Term.tuple.injEq, List.cons.injEq,
        Term.number.injEq] at same
      exact same.2.2.1.2.2.2.1.2.2.1
    exact differ rfl
  obtain ⟨text, declared, warnings⟩ := render_bares bares {} .expression ∅
  exact ⟨bares, text.2 ⟨coveredName, coveredArity⟩, declared, warnings.2 coveredName⟩

def tenToSixteen : Decimal.Binary64 where
  negative := false
  significand := 5000000000000000
  exponent := 1
  significand_lt := by decide
  exponent_ge := by decide
  exponent_le := by decide
  canonical := by decide

/-- A bare module beside a function that is computed is not shown, and a bare float loses its
point. -/
theorem render_bare_module_and_float :
    let name := Construct.atom.term (.list []) [.atom "lists"]
    let computed := Construct.variable.term (.list []) [.atom "F"]
    let call := fun module => Construct.call.term (.list [])
      [Construct.remote.term (.list []) [module, computed], .list []]
    let arity := .number (.float tenToSixteen)
    let capture := fun arity => Construct.funValue.term (.list [])
      [.tuple [.atom "function", name, .atom "f", arity]]
    let rendered := fun t => (ofTerm t).render {} .expression (.ofNames (.singleton "f"))
    (call name).Bares (call (.atom "lists")) ∧
      rendered (call name) = .plain "apply(:lists, f, [])" ∧
      rendered (call (.atom "lists")) =
        { text := "apply(unknown_abstract_code, f, [])"
          declared := ∅
          warnings := [⟨.ofExpression (.atom "lists"), none⟩] } ∧
      (capture (Construct.integer.term (.list []) [arity])).Bares (capture arity) ∧
      rendered (capture (Construct.integer.term (.list []) [arity])) =
        .plain "Function.capture(:lists, :f, 1.0e16)" ∧
      rendered (capture arity) = .plain "Function.capture(:lists, :f, 1e16)" := by
  intro name computed call arity capture rendered
  refine ⟨.remoteCall (.bare _ _) (.same _), ?_, ?_, .remoteCapture (.same _) (.same _) (.bare _ _),
    ?_, ?_⟩
  all_goals decide +kernel

end Expr

end Legible
