import Legible.Proofs.Expr.Whole

/-!
Expressions as a compiler builds them, which are written without placeholders.

`Term.Legal` is the grammar of the supported constructs. No way of filling a construct that the
reader gives up on is in it, so what a legal term reads as consists of whole expressions.
-/

set_option autoImplicit false

namespace Legible

namespace Term

def codes (text : String) : Term :=
  .list (text.toList.map fun c => .number (.integer (Int64.ofNat c.toNat)))

theorem char?_ofNat (c : Char) : (number (.integer (Int64.ofNat c.toNat))).char? = some c := by
  have small : c.toNat < 2 ^ 63 := by
    rcases c.valid with low | ⟨-, high⟩
    · exact low.trans (by decide)
    · exact high.trans (by decide)
  have same : (Int64.ofNat c.toNat).toInt = c.toNat := Int64.toInt_ofNat_of_lt small
  simpa [char?, integer?, number?, Number.integer?, same] using Character.ofCode?_toNat c

theorem chars?_codes (text : String) : (codes text).chars? = some text := by
  have mapped : ∀ chars : List Char,
      (chars.map fun c => number (.integer (Int64.ofNat c.toNat))).mapM
        (fun (code : Term) => code.char?) = some chars := by
    intro chars
    induction chars with
    | nil => rfl
    | cons c rest ih => simp [char?_ofNat, ih]
  rw [codes, chars?, mapped, Option.map_some, String.ofList_toList]

mutual

/-- Expressions and patterns of names and texts that are free of the mark. -/
inductive Legal : Term → Prop
  | variable {a : Term} {name : String} : Whole name →
      Legal (Construct.variable.term a [.atom name])
  | atom {a : Term} {name : String} : Whole name → Legal (Construct.atom.term a [.atom name])
  | integer {a : Term} {value : Number} : value.IsDecoded →
      Legal (Construct.integer.term a [.number value])
  | float {a : Term} {value : Number} : value.IsDecoded →
      Legal (Construct.float.term a [.number value])
  | char {a : Term} {code : Int64} : Legal (Construct.char.term a [.number (.integer code)])
  | string {a : Term} {text : String} : Whole text → Legal (Construct.string.term a [.string text])
  | codes {a : Term} {text : String} : Whole text → Legal (Construct.string.term a [codes text])
  | emptyList {a : Term} : Legal (Construct.emptyList.term a [])
  | cons {a head tail : Term} : Legal head → Legal tail →
      Legal (Construct.cons.term a [head, tail])
  | tuple {a : Term} {elements : List Term} : (∀ t ∈ elements, Legal t) →
      Legal (Construct.tuple.term a [.list elements])
  | map {a : Term} {entries : List Term} : (∀ t ∈ entries, LegalEntry t) →
      Legal (Construct.map.term a [.list entries])
  | mapUpdate {a source : Term} {entries : List Term} : Legal source →
      (∀ t ∈ entries, LegalEntry t) → Legal (Construct.mapUpdate.term a [source, .list entries])
  | matching {a pattern value : Term} : Legal pattern → Legal value →
      Legal (Construct.matching.term a [pattern, value])
  | binaryOp {a left right : Term} {operator : String} : Whole operator → Legal left →
      Legal right → Legal (Construct.binaryOp.term a [.atom operator, left, right])
  | unaryOp {a operand : Term} {operator : String} : Whole operator → Legal operand →
      Legal (Construct.unaryOp.term a [.atom operator, operand])
  | call {a function : Term} {arguments : List Term} : Legal function →
      (∀ t ∈ arguments, Legal t) → Legal (Construct.call.term a [function, .list arguments])
  | remoteCall {a b module function : Term} {arguments : List Term} : Legal module →
      Legal function → (∀ t ∈ arguments, Legal t) →
      Legal (Construct.call.term a [Construct.remote.term b [module, function], .list arguments])
  | closure {a : Term} {clauses : List Term} : (∀ t ∈ clauses, LegalClause t) →
      Legal (Construct.funValue.term a [.tuple [.atom "clauses", .list clauses]])
  | localCapture {a : Term} {function : String} {arity : Int64} : Whole function →
      Legal (Construct.funValue.term a
        [.tuple [.atom "function", .atom function, .number (.integer arity)]])
  | remoteCapture {a module function arity : Term} : Legal module → Legal function →
      Legal arity →
      Legal (Construct.funValue.term a [.tuple [.atom "function", module, function, arity]])
  | caseOf {a value : Term} {clauses : List Term} : Legal value →
      (∀ t ∈ clauses, LegalClause t) → Legal (Construct.caseOf.term a [value, .list clauses])
  | ifOf {a : Term} {clauses : List Term} : (∀ t ∈ clauses, LegalClause t) →
      Legal (Construct.ifOf.term a [.list clauses])
  | receive {a : Term} {clauses : List Term} : (∀ t ∈ clauses, LegalClause t) →
      Legal (Construct.receive.term a [.list clauses])
  | receiveAfter {a timeout : Term} {clauses after : List Term} :
      (∀ t ∈ clauses, LegalClause t) → Legal timeout → (∀ t ∈ after, Legal t) →
      Legal (Construct.receiveAfter.term a [.list clauses, timeout, .list after])
  | block {a : Term} {body : List Term} : (∀ t ∈ body, Legal t) →
      Legal (Construct.block.term a [.list body])

inductive LegalEntry : Term → Prop
  | assoc {a key value : Term} : Legal key → Legal value →
      LegalEntry (Construct.mapFieldAssoc.term a [key, value])
  | exact {a key value : Term} : Legal key → Legal value →
      LegalEntry (Construct.mapFieldExact.term a [key, value])

inductive LegalClause : Term → Prop
  | clause {a : Term} {patterns guards body : List Term} :
      (∀ t ∈ patterns, Legal t) → (∀ t ∈ guards, LegalGuard t) → (∀ t ∈ body, Legal t) →
      LegalClause (Construct.clause.term a [.list patterns, .list guards, .list body])

inductive LegalGuard : Term → Prop
  | tests {tests : List Term} : (∀ t ∈ tests, Legal t) → LegalGuard (.list tests)

end

theorem Legal.construct?_ne_remote {t : Term} (legal : t.Legal) :
    t.construct? ≠ some .remote := by
  cases legal <;> (rw [construct?_term _ _ _ rfl]; nofun)

theorem Legal.whole_of_name? {t : Term} (legal : t.Legal) {name : String}
    (named : t.name? = some name) : Whole name := by
  cases legal with
  | atom whole =>
    cases named
    exact whole
  | _ => cases named

theorem Legal.capturePart_eq {t : Term} (legal : t.Legal) (read : Expr) :
    Expr.capturePart t read = read := by
  cases legal <;> rfl

end Term

namespace Expr

/-- An element before a list, whose elements become children of the whole as well. -/
theorem Every.cons {P : Expr → Prop} {head tail : Expr} (holds : P (cons head tail))
    (first : head.Every P) (rest : tail.Every P) : (cons head tail).Every P := by
  refine .node holds fun child member => ?_
  rcases mem_children_cons member with rfl | rfl | inTail
  · exact first
  · exact rest
  · exact rest.child child inTail

def isVariable : Expr → Bool
  | .variable _ => true
  | _ => false

theorem every_of_words {e : Expr} (words : ∀ word ∈ e.words, Whole word)
    (complaints : e.complaints = []) (constant : e.isVariable = false)
    (each : ∀ child ∈ e.children, child.Every IsWhole) : e.Every IsWhole := by
  refine .node ⟨words, complaints, fun name same => ?_⟩ each
  subst same
  cases constant

theorem every_of_children {e : Expr} (wordless : e.words = []) (complaints : e.complaints = [])
    (constant : e.isVariable = false) (each : ∀ child ∈ e.children, child.Every IsWhole) :
    e.Every IsWhole :=
  every_of_words (wordless ▸ List.forall_mem_nil _) complaints constant each

theorem every_of_word {e : Expr} {word : String} (words : e.words = [word]) (whole : Whole word)
    (complaints : e.complaints = []) (constant : e.isVariable = false)
    (each : ∀ child ∈ e.children, child.Every IsWhole) : e.Every IsWhole :=
  every_of_words (words ▸ List.forall_mem_singleton.2 whole) complaints constant each

theorem every_of_leaf {e : Expr} {word : String} (words : e.words = [word]) (whole : Whole word)
    (complaints : e.complaints = []) (constant : e.isVariable = false)
    (childless : e.children = []) : e.Every IsWhole :=
  every_of_word words whole complaints constant (childless ▸ List.forall_mem_nil _)

end Expr

structure Clause.IsWhole (clause : Clause) : Prop where
  words : clause.words = []
  children : ∀ e ∈ clause.children, e.Every Expr.IsWhole

namespace Clause

variable {clauses : List Clause} (each : ∀ clause ∈ clauses, clause.IsWhole)
include each

theorem whole_of_mem_words : ∀ word ∈ clauses.flatMap words, Whole word := by
  intro word member
  obtain ⟨clause, inClauses, inWords⟩ := List.mem_flatMap.1 member
  rw [(each clause inClauses).words] at inWords
  cases inWords

theorem every_of_mem_children : ∀ e ∈ clauses.flatMap children, e.Every Expr.IsWhole := by
  intro e member
  obtain ⟨clause, inClauses, inClause⟩ := List.mem_flatMap.1 member
  exact (each clause inClauses).children e inClause

end Clause

namespace Expr

theorem isWhole_cons (head tail : Expr) : (cons head tail).IsWhole := by
  cases tail <;> exact ⟨List.forall_mem_nil _, rfl, fun _ same => by cases same⟩

private theorem children_entries {terms : List Term}
    (each : ∀ t ∈ terms, ∀ e ∈ (entryOfTerm t).children, e.Every IsWhole) :
    ∀ e ∈ (terms.map entryOfTerm).flatMap Entry.children, e.Every IsWhole := by
  intro e member
  obtain ⟨_, inEntries, inEntry⟩ := List.mem_flatMap.1 member
  obtain ⟨t, inTerms, rfl⟩ := List.mem_map.1 inEntries
  exact each t inTerms e inEntry

private theorem call_isWhole {a function : Term} {arguments : List Term} (legal : function.Legal)
    (functions : (ofTerm function).Every IsWhole)
    (each : ∀ e ∈ arguments.map ofTerm, e.Every IsWhole) :
    (ofTerm (Construct.call.term a [function, .list arguments])).Every IsWhole := by
  cases named : function.name? with
  | none =>
    -- A remote construct is no expression, so what is called here is a value.
    rw [ofTerm_valueCall named legal.construct?_ne_remote]
    exact every_of_children rfl rfl rfl (List.forall_mem_cons.2 ⟨functions, each⟩)
  | some name =>
    rw [ofTerm_localCall named]
    exact every_of_word rfl (Spelling.unmarked_ofFunction (legal.whole_of_name? named)) rfl rfl
      each

section
variable {a b module function : Term} (legalModule : module.Legal) (legalFunction : function.Legal)
  (modules : (ofTerm module).Every IsWhole) (functions : (ofTerm function).Every IsWhole)
include legalModule legalFunction modules functions

private theorem remoteCall_isWhole {arguments : List Term}
    (each : ∀ e ∈ arguments.map ofTerm, e.Every IsWhole) :
    (ofTerm (Construct.call.term a
      [Construct.remote.term b [module, function], .list arguments])).Every IsWhole := by
  -- The function is known if both parts are names, and found at run time otherwise.
  by_cases nameless : module.name? = none ∨ function.name? = none
  · rw [ofTerm_dynamicCall nameless]
    exact every_of_children rfl rfl rfl
      (List.forall_mem_cons.2 ⟨modules, List.forall_mem_cons.2 ⟨functions, each⟩⟩)
  · simp only [not_or, Option.ne_none_iff_exists'] at nameless
    obtain ⟨⟨moduleName, moduleNamed⟩, name, named⟩ := nameless
    have called := Whole.around "." (by decide)
      (Spelling.unmarked_ofAtom (legalModule.whole_of_name? moduleNamed))
      (Spelling.unmarked_ofRemoteFunction (legalFunction.whole_of_name? named))
    rw [ofTerm_remoteCall moduleNamed named]
    exact every_of_word rfl called rfl rfl each

private theorem remoteCapture_isWhole {arity : Term} (legalArity : arity.Legal)
    (arities : (ofTerm arity).Every IsWhole) :
    (ofTerm (Construct.funValue.term a
      [.tuple [.atom "function", module, function, arity]])).Every IsWhole := by
  by_cases unknown : module.name? = none ∨ function.name? = none ∨ arity.count? = none
  · -- No legal part is a bare atom or number, so all three are written as expressions.
    rw [ofTerm_dynamicCapture unknown, legalModule.capturePart_eq, legalFunction.capturePart_eq,
      legalArity.capturePart_eq]
    exact every_of_children rfl rfl rfl (by simp [children, modules, functions, arities])
  · simp only [not_or, Option.ne_none_iff_exists'] at unknown
    obtain ⟨⟨moduleName, moduleNamed⟩, ⟨name, named⟩, count, counted⟩ := unknown
    have captured := Whole.around "." (by decide)
      (Whole.after "&" (by decide)
        (Spelling.unmarked_ofAtom (legalModule.whole_of_name? moduleNamed)))
      (Spelling.unmarked_ofRemoteFunction (legalFunction.whole_of_name? named))
    rw [ofTerm_remoteCapture moduleNamed named counted]
    exact every_of_leaf rfl (captured.around "/" (by decide) (Spelling.unmarked_ofInt _))
      rfl rfl rfl

end

-- The recursion follows the grammar: what stands in a legal term is smaller than the term.
mutual

theorem every_isWhole {t : Term} (legal : t.Legal) : (ofTerm t).Every IsWhole := by
  cases legal with
  | «variable» whole =>
    exact .node ⟨List.forall_mem_nil _, rfl, fun _ same => by cases same; exact whole⟩
      (List.forall_mem_nil _)
  | atom whole => exact every_of_leaf rfl (Spelling.unmarked_ofAtom whole) rfl rfl rfl
  | integer decoded | float decoded =>
    exact every_of_leaf rfl (Spelling.unmarked_of_numeric decoded.all_literal) rfl rfl rfl
  | char => exact every_of_leaf rfl (Spelling.unmarked_ofChar _) rfl rfl rfl
  | string whole =>
    rw [ofTerm_string rfl]
    exact every_of_leaf rfl (Spelling.unmarked_ofText whole) rfl rfl rfl
  | codes whole =>
    rw [ofTerm_string (Term.chars?_codes _)]
    exact every_of_leaf rfl (Spelling.unmarked_ofText whole) rfl rfl rfl
  | emptyList => exact every_of_children rfl rfl rfl (List.forall_mem_nil _)
  | cons head tail =>
    have heads := every_isWhole head
    have tails := every_isWhole tail
    exact .cons (isWhole_cons _ _) heads tails
  | tuple elements =>
    have each := List.forall_mem_map.2 fun t member => every_isWhole (elements t member)
    rw [ofTerm_tuple]
    exact every_of_children rfl rfl rfl each
  | map entries =>
    have each := children_entries fun t member => children_entryOfTerm_isWhole (entries t member)
    rw [ofTerm_map]
    exact every_of_children rfl rfl rfl each
  | mapUpdate source entries =>
    have sources := every_isWhole source
    have each := children_entries fun t member => children_entryOfTerm_isWhole (entries t member)
    rw [ofTerm_mapUpdate]
    exact every_of_children rfl rfl rfl (List.forall_mem_cons.2 ⟨sources, each⟩)
  | matching pattern value =>
    have patterns := every_isWhole pattern
    have values := every_isWhole value
    exact every_of_children rfl rfl rfl
      (List.forall_mem_cons.2 ⟨patterns, List.forall_mem_singleton.2 values⟩)
  | binaryOp whole left right =>
    have lefts := every_isWhole left
    have rights := every_isWhole right
    exact every_of_word rfl (Operator.whole_binaryWord whole) rfl rfl
      (List.forall_mem_cons.2 ⟨lefts, List.forall_mem_singleton.2 rights⟩)
  | unaryOp whole operand =>
    have operands := every_isWhole operand
    exact every_of_word rfl (Operator.whole_unaryWord whole) rfl rfl
      (List.forall_mem_singleton.2 operands)
  | call legal each =>
    have functions := every_isWhole legal
    have arguments := List.forall_mem_map.2 fun t member => every_isWhole (each t member)
    exact call_isWhole legal functions arguments
  | remoteCall legalModule legalFunction each =>
    have modules := every_isWhole legalModule
    have functions := every_isWhole legalFunction
    have arguments := List.forall_mem_map.2 fun t member => every_isWhole (each t member)
    exact remoteCall_isWhole legalModule legalFunction modules functions arguments
  | closure clauses =>
    have wholes := List.forall_mem_map.2 fun t member => clauseOfTerm_isWhole (clauses t member)
    rw [ofTerm_closure]
    exact every_of_words (Clause.whole_of_mem_words wholes) rfl rfl
      (Clause.every_of_mem_children wholes)
  | localCapture whole =>
    have captured := Whole.after "&" (by decide) (Spelling.unmarked_ofFunction whole)
    rw [ofTerm_localCapture rfl rfl]
    exact every_of_leaf rfl (captured.around "/" (by decide) (Spelling.unmarked_ofInt _))
      rfl rfl rfl
  | remoteCapture legalModule legalFunction legalArity =>
    have modules := every_isWhole legalModule
    have functions := every_isWhole legalFunction
    have arities := every_isWhole legalArity
    exact remoteCapture_isWhole legalModule legalFunction modules functions legalArity arities
  | caseOf value clauses =>
    have values := every_isWhole value
    have wholes := List.forall_mem_map.2 fun t member => clauseOfTerm_isWhole (clauses t member)
    rw [ofTerm_caseOf]
    exact every_of_words (Clause.whole_of_mem_words wholes) rfl rfl
      (List.forall_mem_cons.2 ⟨values, Clause.every_of_mem_children wholes⟩)
  | ifOf clauses =>
    have wholes := List.forall_mem_map.2 fun t member => clauseOfTerm_isWhole (clauses t member)
    rw [ofTerm_ifOf]
    exact every_of_words (Clause.whole_of_mem_words wholes) rfl rfl
      (Clause.every_of_mem_children wholes)
  | receive clauses =>
    have wholes := List.forall_mem_map.2 fun t member => clauseOfTerm_isWhole (clauses t member)
    rw [ofTerm_receive]
    exact every_of_words (Clause.whole_of_mem_words wholes) rfl rfl
      (Clause.every_of_mem_children wholes)
  | receiveAfter clauses timeout after =>
    have wholes := List.forall_mem_map.2 fun t member => clauseOfTerm_isWhole (clauses t member)
    have timeouts := every_isWhole timeout
    have each := List.forall_mem_map.2 fun t member => every_isWhole (after t member)
    rw [ofTerm_receiveAfter]
    exact every_of_words (Clause.whole_of_mem_words wholes) rfl rfl
      (List.forall_mem_append.2 ⟨Clause.every_of_mem_children wholes,
        List.forall_mem_cons.2 ⟨timeouts, each⟩⟩)
  | block body =>
    have each := List.forall_mem_map.2 fun t member => every_isWhole (body t member)
    rw [ofTerm_block]
    exact every_of_children rfl rfl rfl each

theorem children_entryOfTerm_isWhole {t : Term} (legal : t.LegalEntry) :
    ∀ e ∈ (entryOfTerm t).children, e.Every IsWhole := by
  cases legal with
  | assoc key value | exact key value =>
    have keys := every_isWhole key
    have values := every_isWhole value
    exact List.forall_mem_cons.2 ⟨keys, List.forall_mem_singleton.2 values⟩

theorem clauseOfTerm_isWhole {t : Term} (legal : t.LegalClause) : (clauseOfTerm t).IsWhole := by
  cases legal with
  | clause patterns guards body =>
    -- Tests of all guards are children of the clause, whichever alternative they belong to.
    have heads := List.forall_mem_map.2 fun t member => every_isWhole (patterns t member)
    have tests := fun t member => testsOfTerm_isWhole (guards t member)
    have bodies := List.forall_mem_map.2 fun t member => every_isWhole (body t member)
    rw [clauseOfTerm_clause]
    refine ⟨rfl, List.forall_mem_append.2 ⟨List.forall_mem_append.2 ⟨heads, ?_⟩, bodies⟩⟩
    intro e member
    obtain ⟨_, inGuards, inTests⟩ := List.mem_flatten.1 member
    obtain ⟨guard, inTerms, rfl⟩ := List.mem_map.1 inGuards
    exact tests guard inTerms e inTests

theorem testsOfTerm_isWhole {t : Term} (legal : t.LegalGuard) :
    ∀ e ∈ testsOfTerm t, e.Every IsWhole := by
  cases legal with
  | tests each => exact List.forall_mem_map.2 fun t member => every_isWhole (each t member)

end

/-- A legal expression warns of nothing, and no placeholder stands in its text. -/
theorem render_legal {t : Term} (legal : t.Legal) (layout : Layout) (position : Position)
    (scope : Scope) :
    let rendering := (ofTerm t).render layout position scope
    rendering.warnings = [] ∧
      ∀ what : Placeholder, ¬ what.text.toList <:+: rendering.text.toList := by
  intro rendering
  have ⟨quiet, whole⟩ := whole_of_every (every_isWhole legal) layout position scope
  exact ⟨quiet, Text.Unmarked.free whole⟩

/-- A clause of a case with a guard and a call of another module. -/
theorem render_legal_caseOf :
    let one := Construct.integer.term (.list []) [.number (.integer 1)]
    let named := Construct.variable.term (.list []) [.atom "X"]
    let test := Construct.binaryOp.term (.list []) [.atom "<", named, one]
    let callee := Construct.remote.term (.list [])
      [Construct.atom.term (.list []) [.atom "lists"], Construct.atom.term (.list []) [.atom "seq"]]
    let body := Construct.call.term (.list []) [callee, .list [one, named]]
    let clause := Construct.clause.term (.list [])
      [.list [named], .list [.list [test]], .list [body]]
    let t := Construct.caseOf.term (.list []) [one, .list [clause]]
    let rendering := (ofTerm t).render {} .expression ∅
    t.Legal ∧ rendering.warnings = [] ∧
      ∀ what : Placeholder, ¬ what.text.toList <:+: rendering.text.toList := by
  intro one named test callee body clause t rendering
  have legalOne : one.Legal := .integer ⟨"1".toList, _, rfl, rfl⟩
  have legalNamed : named.Legal := .variable (by decide)
  have legalTest : test.Legal := .binaryOp (by decide) legalNamed legalOne
  have legalBody : body.Legal := .remoteCall (.atom (by decide)) (.atom (by decide))
    (by simp [legalOne, legalNamed])
  have legalClause : clause.LegalClause := .clause (by simp [legalNamed])
    (List.forall_mem_singleton.2 (.tests (by simp [legalTest]))) (by simp [legalBody])
  have legal : t.Legal := .caseOf legalOne (by simp [legalClause])
  exact ⟨legal, render_legal legal {} .expression ∅⟩

end Expr

end Legible
