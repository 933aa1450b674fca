import Legible.Expr.Reading
import Legible.Proofs.Term.Subterms

/-!
What a term reads as, with one case for each way in which a construct can be filled.

`Expr.reads` says all that reading can do, so later proofs take a term apart by its cases and do not
open the reader.
-/

set_option autoImplicit false

namespace Legible

def Construct.isExpression : Construct → Bool
  | .mapFieldAssoc | .mapFieldExact | .remote | .clause | .function | .attribute | .endOfFile
  | .type | .typeOfAnything | .userType | .remoteType | .annotatedType => false
  | _ => true

namespace Term

@[simp] theorem construct?_term (construct : Construct) (a : Term) (payload : List Term)
    (filled : payload.length = construct.payload.length) :
    (construct.term a payload).construct? = some construct := by
  rw [construct?_eq_some_iff]
  simp [Construct.accepts, tag?, arity?, tuple?, Construct.arity, Construct.fields, filled]

theorem eq_term_of_construct? {t : Term} {construct : Construct}
    (found : t.construct? = some construct) : ∃ a payload,
      t = construct.term a payload ∧ payload.length = construct.payload.length := by
  have accepts := construct?_eq_some_iff.1 found
  simp only [Construct.accepts, Bool.and_eq_true, beq_iff_eq] at accepts
  obtain ⟨hasTag, hasArity⟩ := accepts
  cases t with
  | tuple elements =>
    rcases elements with _ | ⟨head, rest⟩
    · simp [tag?] at hasTag
    cases head with
    | atom tag =>
      obtain rfl : tag = construct.tag := by simpa [tag?] using hasTag
      cases rest with
      | nil => simp [arity?, tuple?, Construct.arity, Construct.fields] at hasArity
      | cons a payload =>
        refine ⟨a, payload, rfl, ?_⟩
        simpa [arity?, tuple?, Construct.arity, Construct.fields] using hasArity
    | tuple | list | number | string => simp [tag?] at hasTag
  | atom | list | number | string => simp [tag?] at hasTag

theorem list?_eq_some_iff {t : Term} {members : List Term} :
    t.list? = some members ↔ t = .list members := by
  cases t <;> simp [list?]

theorem quotedAtom?_eq_some_iff {t : Term} {name : String} :
    t.quotedAtom? = some name ↔ ∃ a, t = Construct.atom.term a [.atom name] := by
  constructor
  · intro quoted
    simp only [quotedAtom?] at quoted
    split at quoted
    next accepts =>
      obtain ⟨a, payload, rfl, filled⟩ := eq_term_of_construct? (construct?_eq_some_iff.2 accepts)
      match payload, filled with
      | [x], _ =>
        cases x with
        | atom => cases quoted; exact ⟨a, rfl⟩
        | tuple | list | number | string => cases quoted
    next => cases quoted
  · rintro ⟨a, rfl⟩
    rfl

theorem name?_eq_some_iff {t : Term} {name : String} :
    t.name? = some name ↔ t = .atom name ∨ ∃ a, t = Construct.atom.term a [.atom name] := by
  cases t with
  | tuple => simp [name?, atom?, quotedAtom?_eq_some_iff]
  | atom => simp [name?, atom?]
  | list | number | string =>
    simp [name?, atom?, quotedAtom?, Construct.accepts, tag?]

def members : Term → List Term
  | .list members => members
  | _ => []

/-- A construct whose payload has the right length and the wrong kind, and what is shown for it. -/
inductive Malformed : Term → Placeholder → Prop
  | variable {a x : Term} : x.atom? = none → Malformed (Construct.variable.term a [x]) .name
  | atom {a x : Term} : x.atom? = none → Malformed (Construct.atom.term a [x]) .code
  | integer {a x : Term} : x.number? = none → Malformed (Construct.integer.term a [x]) .code
  | float {a x : Term} : x.number? = none → Malformed (Construct.float.term a [x]) .code
  | char {a x : Term} : x.integer? = none → Malformed (Construct.char.term a [x]) .code
  | string {a x : Term} : x.chars? = none → Malformed (Construct.string.term a [x]) .string
  | tuple {a x : Term} : x.list? = none → Malformed (Construct.tuple.term a [x]) .code
  | call {a f x : Term} : x.list? = none → Malformed (Construct.call.term a [f, x]) .code
  | closure {a x : Term} : x.list? = none →
      Malformed (Construct.funValue.term a [.tuple [.atom "clauses", x]]) .clauses
  | localCapture {a name arity : Term} : name.name? = none ∨ arity.count? = none →
      Malformed (Construct.funValue.term a [.tuple [.atom "function", name, arity]]) .code
  | funValue {a x : Term} :
      (∀ y, x ≠ .tuple [.atom "clauses", y]) →
      (∀ y z, x ≠ .tuple [.atom "function", y, z]) →
      (∀ y z w, x ≠ .tuple [.atom "function", y, z, w]) →
      Malformed (Construct.funValue.term a [x]) .code
  | caseOf {a v x : Term} : x.list? = none → Malformed (Construct.caseOf.term a [v, x]) .code
  | ifOf {a x : Term} : x.list? = none → Malformed (Construct.ifOf.term a [x]) .code
  | receive {a x : Term} : x.list? = none → Malformed (Construct.receive.term a [x]) .code
  | receiveAfter {a x t y : Term} : x.list? = none ∨ y.list? = none →
      Malformed (Construct.receiveAfter.term a [x, t, y]) .code
  | block {a x : Term} : x.list? = none → Malformed (Construct.block.term a [x]) .code

end Term

namespace Expr

theorem ofTerms_eq_map (terms : List Term) : ofTerms terms = terms.map ofTerm := by
  induction terms with
  | nil => rfl
  | cons t rest ih => simp [ofTerms, ih]

def entryOfTerm (t : Term) : Entry :=
  match t with
  | .tuple (.atom tag :: _ :: payload) =>
    match Construct.find? tag (payload.length + 2), payload with
    | some .mapFieldAssoc, [key, value] => .pair (ofTerm key) (ofTerm value)
    | some .mapFieldExact, [key, value] => .pair (ofTerm key) (ofTerm value)
    | _, _ => .single (ofTerm t)
  | _ => .single (ofTerm t)

theorem entriesOfTerms_eq_map (terms : List Term) :
    entriesOfTerms terms = terms.map entryOfTerm := by
  induction terms with
  | nil => rfl
  | cons t rest ih =>
    rw [List.map_cons, ← ih, entriesOfTerms.eq_def]
    rfl

def testsOfTerm : Term → List Expr
  | .list tests => tests.map ofTerm
  | t => [ofTerm t]

theorem guardsOfTerms_eq_map (terms : List Term) :
    guardsOfTerms terms = terms.map testsOfTerm := by
  induction terms with
  | nil => rfl
  | cons t rest ih => cases t <;> simp [guardsOfTerms, testsOfTerm, ofTerms_eq_map, ih]

theorem clausesOfTerms_eq_map (terms : List Term) :
    clausesOfTerms terms = terms.map clauseOfTerm := by
  induction terms with
  | nil => rfl
  | cons t rest ih => simp [clausesOfTerms, ih]

theorem listOfTerm_eq_map (t : Term) : listOfTerm t = t.members.map ofTerm := by
  cases t <;> simp [listOfTerm, Term.members, ofTerms_eq_map]

theorem guardsOfTerm_eq_map (t : Term) : guardsOfTerm t = t.members.map testsOfTerm := by
  cases t <;> simp [guardsOfTerm, Term.members, guardsOfTerms_eq_map]

inductive ReadsEntry : Term → Entry → Prop
  | assoc {a key value : Term} :
      ReadsEntry (Construct.mapFieldAssoc.term a [key, value]) (.pair (ofTerm key) (ofTerm value))
  | exact {a key value : Term} :
      ReadsEntry (Construct.mapFieldExact.term a [key, value]) (.pair (ofTerm key) (ofTerm value))
  | single {t : Term} : t.construct? ≠ some .mapFieldAssoc → t.construct? ≠ some .mapFieldExact →
      ReadsEntry t (.single (ofTerm t))

inductive ReadsClause : Term → Clause → Prop
  | clause {a patterns guards body : Term} :
      ReadsClause (Construct.clause.term a [patterns, guards, body])
        (.clause (patterns.members.map ofTerm) (guards.members.map testsOfTerm)
          (body.members.map ofTerm))
  | malformed {t : Term} : t.construct? ≠ some .clause → ReadsClause t .malformed

/-- What a term reads as. -/
inductive Reads : Term → Expr → Prop
  | unsupported {t : Term} : (∀ c, t.construct? = some c → c.isExpression = false) →
      Reads t (ofUnsupported t)
  | malformed {t : Term} {what : Placeholder} : t.Malformed what → Reads t (.placeholder what)
  | variable {a : Term} {name : String} :
      Reads (Construct.variable.term a [.atom name]) (.variable name)
  | atom {a : Term} {name : String} : Reads (Construct.atom.term a [.atom name]) (.atom name)
  | integer {a : Term} {value : Number} :
      Reads (Construct.integer.term a [.number value]) (.integer value)
  | float {a : Term} {value : Number} :
      Reads (Construct.float.term a [.number value]) (.float value)
  | char {a : Term} {code : Int64} :
      Reads (Construct.char.term a [.number (.integer code)]) (.char code)
  | string {a x : Term} {text : String} : x.chars? = some text →
      Reads (Construct.string.term a [x]) (.string text)
  | emptyList {a : Term} : Reads (Construct.emptyList.term a []) (.list [])
  | cons {a head tail : Term} :
      Reads (Construct.cons.term a [head, tail]) (cons (ofTerm head) (ofTerm tail))
  | tuple {a : Term} {elements : List Term} :
      Reads (Construct.tuple.term a [.list elements]) (.tuple (elements.map ofTerm))
  | map {a : Term} {entries : List Term} :
      Reads (Construct.map.term a [.list entries]) (.map (entries.map entryOfTerm))
  | mapHole {a x : Term} : x.list? = none →
      Reads (Construct.map.term a [x]) (.map [.single (.placeholder .code)])
  | mapUpdate {a source : Term} {entries : List Term} :
      Reads (Construct.mapUpdate.term a [source, .list entries])
        (.mapUpdate (ofTerm source) (entries.map entryOfTerm))
  | mapUpdateHole {a source x : Term} : x.list? = none →
      Reads (Construct.mapUpdate.term a [source, x])
        (.mapUpdate (ofTerm source) [.single (.placeholder .code)])
  | matching {a pattern value : Term} :
      Reads (Construct.matching.term a [pattern, value]) (.matching (ofTerm pattern) (ofTerm value))
  | binaryOp {a operator left right : Term} :
      Reads (Construct.binaryOp.term a [operator, left, right])
        (.binaryOp operator.atom? (ofTerm left) (ofTerm right))
  | unaryOp {a operator operand : Term} :
      Reads (Construct.unaryOp.term a [operator, operand])
        (.unaryOp operator.atom? (ofTerm operand))
  | localCall {a function : Term} {name : String} {arguments : List Term} :
      function.name? = some name →
      Reads (Construct.call.term a [function, .list arguments])
        (.localCall name (arguments.map ofTerm))
  | remoteCall {a b module function : Term} {moduleName name : String} {arguments : List Term} :
      module.name? = some moduleName → function.name? = some name →
      Reads (Construct.call.term a [Construct.remote.term b [module, function], .list arguments])
        (.remoteCall moduleName name (arguments.map ofTerm))
  | dynamicCall {a b module function : Term} {arguments : List Term} :
      module.name? = none ∨ function.name? = none →
      Reads (Construct.call.term a [Construct.remote.term b [module, function], .list arguments])
        (.dynamicCall (ofTerm module) (ofTerm function) (arguments.map ofTerm))
  | valueCall {a function : Term} {arguments : List Term} :
      function.name? = none → function.construct? ≠ some .remote →
      Reads (Construct.call.term a [function, .list arguments])
        (.valueCall (ofTerm function) (arguments.map ofTerm))
  | closure {a : Term} {clauses : List Term} :
      Reads (Construct.funValue.term a [.tuple [.atom "clauses", .list clauses]])
        (.closure (clauses.map clauseOfTerm))
  | localCapture {a function arity : Term} {name : String} {count : Int64} :
      function.name? = some name → arity.count? = some count →
      Reads (Construct.funValue.term a [.tuple [.atom "function", function, arity]])
        (.localCapture name count)
  | remoteCapture {a module function arity : Term} {moduleName name : String} {count : Int64} :
      module.name? = some moduleName → function.name? = some name → arity.count? = some count →
      Reads (Construct.funValue.term a [.tuple [.atom "function", module, function, arity]])
        (.remoteCapture moduleName name count)
  | dynamicCapture {a module function arity : Term} :
      module.name? = none ∨ function.name? = none ∨ arity.count? = none →
      Reads (Construct.funValue.term a [.tuple [.atom "function", module, function, arity]])
        (.dynamicCapture (capturePart module (ofTerm module))
          (capturePart function (ofTerm function)) (capturePart arity (ofTerm arity)))
  | caseOf {a value : Term} {clauses : List Term} :
      Reads (Construct.caseOf.term a [value, .list clauses])
        (.caseOf (ofTerm value) (clauses.map clauseOfTerm))
  | ifOf {a : Term} {clauses : List Term} :
      Reads (Construct.ifOf.term a [.list clauses]) (.ifOf (clauses.map clauseOfTerm))
  | receive {a : Term} {clauses : List Term} :
      Reads (Construct.receive.term a [.list clauses]) (.receive (clauses.map clauseOfTerm))
  | receiveAfter {a timeout : Term} {clauses after : List Term} :
      Reads (Construct.receiveAfter.term a [.list clauses, timeout, .list after])
        (.receiveAfter (clauses.map clauseOfTerm) (ofTerm timeout) (after.map ofTerm))
  | block {a : Term} {body : List Term} :
      Reads (Construct.block.term a [.list body]) (.block (body.map ofTerm))

theorem clauseOfTerm_clause (a patterns guards body : Term) :
    clauseOfTerm (Construct.clause.term a [patterns, guards, body]) =
      .clause (patterns.members.map ofTerm) (guards.members.map testsOfTerm)
        (body.members.map ofTerm) := by
  rw [← listOfTerm_eq_map, ← guardsOfTerm_eq_map, ← listOfTerm_eq_map]
  rfl

theorem clauseOfTerm_malformed {t : Term} (noClause : t.construct? ≠ some .clause) :
    clauseOfTerm t = .malformed := by
  unfold clauseOfTerm
  split
  · split
    next clause => exact absurd clause noClause
    next => rfl
  · rfl

theorem readsClause (t : Term) : ReadsClause t (clauseOfTerm t) := by
  by_cases found : t.construct? = some .clause
  · obtain ⟨a, payload, rfl, filled⟩ := Term.eq_term_of_construct? found
    match payload, filled with
    | [patterns, guards, body], _ =>
      rw [clauseOfTerm_clause]
      exact .clause
  · rw [clauseOfTerm_malformed found]
    exact .malformed found

theorem entryOfTerm_single {t : Term} (noAssoc : t.construct? ≠ some .mapFieldAssoc)
    (noExact : t.construct? ≠ some .mapFieldExact) : entryOfTerm t = .single (ofTerm t) := by
  unfold entryOfTerm
  split
  · split
    next field => exact absurd field noAssoc
    next field => exact absurd field noExact
    next => rfl
  · rfl

theorem readsEntry (t : Term) : ReadsEntry t (entryOfTerm t) := by
  by_cases assoc : t.construct? = some .mapFieldAssoc
  · obtain ⟨a, payload, rfl, filled⟩ := Term.eq_term_of_construct? assoc
    match payload, filled with
    | [key, value], _ => exact .assoc
  by_cases exactly : t.construct? = some .mapFieldExact
  · obtain ⟨a, payload, rfl, filled⟩ := Term.eq_term_of_construct? exactly
    match payload, filled with
    | [key, value], _ => exact .exact
  rw [entryOfTerm_single assoc exactly]
  exact .single assoc exactly

section
variable {a source value timeout : Term} {members after : List Term}

theorem ofTerm_tuple :
    ofTerm (Construct.tuple.term a [.list members]) = .tuple (members.map ofTerm) := by
  rw [← ofTerms_eq_map]
  rfl

theorem ofTerm_block :
    ofTerm (Construct.block.term a [.list members]) = .block (members.map ofTerm) := by
  rw [← ofTerms_eq_map]
  rfl

theorem ofTerm_map :
    ofTerm (Construct.map.term a [.list members]) = .map (members.map entryOfTerm) := by
  rw [← entriesOfTerms_eq_map]
  rfl

theorem ofTerm_mapUpdate : ofTerm (Construct.mapUpdate.term a [source, .list members]) =
    .mapUpdate (ofTerm source) (members.map entryOfTerm) := by
  rw [← entriesOfTerms_eq_map]
  rfl

theorem ofTerm_closure :
    ofTerm (Construct.funValue.term a [.tuple [.atom "clauses", .list members]]) =
      .closure (members.map clauseOfTerm) := by
  rw [← clausesOfTerms_eq_map]
  rfl

theorem ofTerm_caseOf : ofTerm (Construct.caseOf.term a [value, .list members]) =
    .caseOf (ofTerm value) (members.map clauseOfTerm) := by
  rw [← clausesOfTerms_eq_map]
  rfl

theorem ofTerm_ifOf :
    ofTerm (Construct.ifOf.term a [.list members]) = .ifOf (members.map clauseOfTerm) := by
  rw [← clausesOfTerms_eq_map]
  rfl

theorem ofTerm_receive :
    ofTerm (Construct.receive.term a [.list members]) = .receive (members.map clauseOfTerm) := by
  rw [← clausesOfTerms_eq_map]
  rfl

theorem ofTerm_receiveAfter :
    ofTerm (Construct.receiveAfter.term a [.list members, timeout, .list after]) =
      .receiveAfter (members.map clauseOfTerm) (ofTerm timeout) (after.map ofTerm) := by
  rw [← clausesOfTerms_eq_map, ← ofTerms_eq_map]
  rfl

end

theorem ofTerm_valueCall {a function : Term} {arguments : List Term}
    (nameless : function.name? = none) (notRemote : function.construct? ≠ some .remote) :
    ofTerm (Construct.call.term a [function, .list arguments]) =
      .valueCall (ofTerm function) (arguments.map ofTerm) := by
  have known : Construct.find? Construct.call.tag ([function, .list arguments].length + 2) =
    some .call := rfl
  rw [ofTerm.eq_def]
  simp only [known, ofTerms_eq_map]
  split
  next name same =>
    cases same
    cases nameless
  next other same =>
    cases same
    split
    next tag b called =>
      split
      next name isAtom =>
        obtain ⟨rfl, -⟩ := Construct.find?_eq_some_iff.1 isAtom
        cases nameless
      next module name isRemote => exact absurd isRemote notRemote
      next => rfl
    next => rfl
  next none => exact absurd rfl (none function arguments)

theorem ofTerm_call_malformed {a function x : Term} (noList : x.list? = none) :
    ofTerm (Construct.call.term a [function, x]) = .placeholder .code := by
  have known : Construct.find? Construct.call.tag ([function, x].length + 2) = some .call := rfl
  rw [ofTerm.eq_def]
  simp only [known]
  split
  next same => cases same; cases noList
  next same => cases same; cases noList
  next => rfl

theorem ofTerm_localCall {a function : Term} {name : String} {arguments : List Term}
    (named : function.name? = some name) :
    ofTerm (Construct.call.term a [function, .list arguments]) =
      .localCall name (arguments.map ofTerm) := by
  rw [← ofTerms_eq_map]
  rcases Term.name?_eq_some_iff.1 named with rfl | ⟨b, rfl⟩
  · rfl
  · rfl

section
variable {a b module function : Term} {arguments : List Term}

theorem ofTerm_callRemote :
    ofTerm (Construct.call.term a [Construct.remote.term b [module, function], .list arguments]) =
      match module.name?, function.name? with
      | some moduleName, some name => .remoteCall moduleName name (arguments.map ofTerm)
      | _, _ => .dynamicCall (ofTerm module) (ofTerm function) (arguments.map ofTerm) := by
  rw [← ofTerms_eq_map]
  rfl

theorem ofTerm_remoteCall {moduleName name : String} (moduleNamed : module.name? = some moduleName)
    (named : function.name? = some name) :
    ofTerm (Construct.call.term a [Construct.remote.term b [module, function], .list arguments]) =
      .remoteCall moduleName name (arguments.map ofTerm) := by
  rw [ofTerm_callRemote, moduleNamed, named]

theorem ofTerm_dynamicCall (nameless : module.name? = none ∨ function.name? = none) :
    ofTerm (Construct.call.term a [Construct.remote.term b [module, function], .list arguments]) =
      .dynamicCall (ofTerm module) (ofTerm function) (arguments.map ofTerm) := by
  rw [ofTerm_callRemote]
  rcases nameless with missing | missing
  · rw [missing]
  · rw [missing]
    cases module.name? <;> rfl

end

private theorem reads_remoteCall (a b module function : Term) (arguments : List Term) :
    let t := Construct.call.term a [Construct.remote.term b [module, function], .list arguments]
    Reads t (ofTerm t) := by
  intro t
  cases moduleName : module.name? with
  | none =>
    rw [ofTerm_dynamicCall (.inl moduleName)]
    exact .dynamicCall (.inl moduleName)
  | some =>
    cases name : function.name? with
    | none =>
      rw [ofTerm_dynamicCall (.inr name)]
      exact .dynamicCall (.inr name)
    | some =>
      rw [ofTerm_remoteCall moduleName name]
      exact .remoteCall moduleName name

private theorem reads_call (a function x : Term) :
    Reads (Construct.call.term a [function, x]) (ofTerm (Construct.call.term a [function, x])) := by
  cases members : x.list? with
  | none =>
    rw [ofTerm_call_malformed members]
    exact .malformed (.call members)
  | some arguments =>
    obtain rfl := Term.list?_eq_some_iff.1 members
    -- A name calls a local function, a remote construct one of a module, and the rest is a value.
    cases named : function.name? with
    | some name =>
      rw [ofTerm_localCall named]
      exact .localCall named
    | none =>
      by_cases isRemote : function.construct? = some .remote
      · obtain ⟨b, payload, rfl, filled⟩ := Term.eq_term_of_construct? isRemote
        match payload, filled with
        | [module, name], _ => exact reads_remoteCall a b module name arguments
      · rw [ofTerm_valueCall named isRemote]
        exact .valueCall named isRemote

private theorem reads_closure (a x : Term) :
    let t := Construct.funValue.term a [.tuple [.atom "clauses", x]]
    Reads t (ofTerm t) := by
  intro t
  cases x with
  | list clauses =>
    rw [ofTerm_closure]
    exact .closure
  | tuple | atom | number | string => exact .malformed (.closure rfl)

section
variable {a module function arity : Term}

private theorem ofTerm_captureLocal :
    ofTerm (Construct.funValue.term a [.tuple [.atom "function", function, arity]]) =
      match function.name?, arity.count? with
      | some name, some count => .localCapture name count
      | _, _ => .placeholder .code :=
  rfl

theorem ofTerm_localCapture {name : String} {count : Int64} (named : function.name? = some name)
    (counted : arity.count? = some count) :
    ofTerm (Construct.funValue.term a [.tuple [.atom "function", function, arity]]) =
      .localCapture name count := by
  rw [ofTerm_captureLocal, named, counted]

theorem ofTerm_captureRemote :
    ofTerm (Construct.funValue.term a [.tuple [.atom "function", module, function, arity]]) =
      match module.name?, function.name?, arity.count? with
      | some moduleName, some name, some count => .remoteCapture moduleName name count
      | _, _, _ => .dynamicCapture (capturePart module (ofTerm module))
        (capturePart function (ofTerm function)) (capturePart arity (ofTerm arity)) :=
  rfl

theorem ofTerm_remoteCapture {moduleName name : String} {count : Int64}
    (moduleNamed : module.name? = some moduleName) (named : function.name? = some name)
    (counted : arity.count? = some count) :
    ofTerm (Construct.funValue.term a [.tuple [.atom "function", module, function, arity]]) =
      .remoteCapture moduleName name count := by
  rw [ofTerm_captureRemote, moduleNamed, named, counted]

theorem ofTerm_dynamicCapture
    (unknown : module.name? = none ∨ function.name? = none ∨ arity.count? = none) :
    ofTerm (Construct.funValue.term a [.tuple [.atom "function", module, function, arity]]) =
      .dynamicCapture (capturePart module (ofTerm module)) (capturePart function (ofTerm function))
        (capturePart arity (ofTerm arity)) := by
  rw [ofTerm_captureRemote]
  rcases unknown with missing | missing | missing
  · rw [missing]
  · rw [missing]
    cases module.name? <;> rfl
  · rw [missing]
    cases module.name? <;> cases function.name? <;> rfl

end

private theorem reads_localCapture (a function arity : Term) :
    let t := Construct.funValue.term a [.tuple [.atom "function", function, arity]]
    Reads t (ofTerm t) := by
  intro t
  cases name : function.name? with
  | none =>
    rw [ofTerm_captureLocal, name]
    exact .malformed (.localCapture (.inl name))
  | some =>
    cases count : arity.count? with
    | none =>
      rw [ofTerm_captureLocal, name, count]
      exact .malformed (.localCapture (.inr count))
    | some =>
      rw [ofTerm_localCapture name count]
      exact .localCapture name count

private theorem reads_remoteCapture (a module function arity : Term) :
    let t := Construct.funValue.term a [.tuple [.atom "function", module, function, arity]]
    Reads t (ofTerm t) := by
  intro t
  cases moduleName : module.name? with
  | none =>
    rw [ofTerm_dynamicCapture (.inl moduleName)]
    exact .dynamicCapture (.inl moduleName)
  | some =>
    cases name : function.name? with
    | none =>
      rw [ofTerm_dynamicCapture (.inr (.inl name))]
      exact .dynamicCapture (.inr (.inl name))
    | some =>
      cases count : arity.count? with
      | none =>
        rw [ofTerm_dynamicCapture (.inr (.inr count))]
        exact .dynamicCapture (.inr (.inr count))
      | some =>
        rw [ofTerm_remoteCapture moduleName name count]
        exact .remoteCapture moduleName name count

theorem ofTerm_funValue_malformed {a x : Term}
    (closure : ∀ y, x ≠ .tuple [.atom "clauses", y])
    (localCapture : ∀ y z, x ≠ .tuple [.atom "function", y, z])
    (remoteCapture : ∀ y z w, x ≠ .tuple [.atom "function", y, z, w]) :
    ofTerm (Construct.funValue.term a [x]) = .placeholder .code := by
  have known : Construct.find? Construct.funValue.tag ([x].length + 2) = some .funValue := rfl
  rw [ofTerm.eq_def]
  simp only [known]
  split
  next same => cases same; exact absurd rfl (closure _)
  next same => cases same; exact absurd rfl (closure _)
  next same => cases same; exact absurd rfl (localCapture _ _)
  next same => cases same; exact absurd rfl (remoteCapture _ _ _)
  next => rfl

private theorem reads_funValue (a x : Term) :
    Reads (Construct.funValue.term a [x]) (ofTerm (Construct.funValue.term a [x])) := by
  -- The shape of the payload decides between clauses and the two kinds of captures.
  by_cases closure : ∃ y, x = .tuple [.atom "clauses", y]
  · obtain ⟨y, rfl⟩ := closure
    exact reads_closure a y
  by_cases localCapture : ∃ y z, x = .tuple [.atom "function", y, z]
  · obtain ⟨y, z, rfl⟩ := localCapture
    exact reads_localCapture a y z
  by_cases remoteCapture : ∃ y z w, x = .tuple [.atom "function", y, z, w]
  · obtain ⟨y, z, w, rfl⟩ := remoteCapture
    exact reads_remoteCapture a y z w
  simp only [not_exists] at closure localCapture remoteCapture
  rw [ofTerm_funValue_malformed closure localCapture remoteCapture]
  exact .malformed (.funValue closure localCapture remoteCapture)

private theorem ofTerm_chars {a x : Term} : ofTerm (Construct.string.term a [x]) =
    match x.chars? with
    | some text => .string text
    | none => .placeholder .string :=
  rfl

theorem ofTerm_string {a x : Term} {text : String} (spells : x.chars? = some text) :
    ofTerm (Construct.string.term a [x]) = .string text := by
  rw [ofTerm_chars, spells]

private theorem reads_string (a x : Term) :
    Reads (Construct.string.term a [x]) (ofTerm (Construct.string.term a [x])) := by
  cases text : x.chars? with
  | some =>
    rw [ofTerm_string text]
    exact .string text
  | none =>
    rw [ofTerm_chars, text]
    exact .malformed (.string text)

private theorem reads_integer (a x : Term) :
    Reads (Construct.integer.term a [x]) (ofTerm (Construct.integer.term a [x])) := by
  cases x with
  | number => exact .integer
  | tuple | list | atom | string => exact .malformed (.integer rfl)

private theorem reads_float (a x : Term) :
    Reads (Construct.float.term a [x]) (ofTerm (Construct.float.term a [x])) := by
  cases x with
  | number => exact .float
  | tuple | list | atom | string => exact .malformed (.float rfl)

private theorem reads_char (a x : Term) :
    Reads (Construct.char.term a [x]) (ofTerm (Construct.char.term a [x])) := by
  cases x with
  | number value =>
    cases value with
    | integer => exact .char
    | float | beyond => exact .malformed (.char rfl)
  | tuple | list | atom | string => exact .malformed (.char rfl)

private theorem reads_tuple (a x : Term) :
    Reads (Construct.tuple.term a [x]) (ofTerm (Construct.tuple.term a [x])) := by
  cases x with
  | list members =>
    rw [ofTerm_tuple]
    exact .tuple
  | tuple | atom | number | string => exact .malformed (.tuple rfl)

private theorem reads_map (a x : Term) :
    Reads (Construct.map.term a [x]) (ofTerm (Construct.map.term a [x])) := by
  cases x with
  | list members =>
    rw [ofTerm_map]
    exact .map
  | tuple | atom | number | string => exact .mapHole rfl

private theorem reads_ifOf (a x : Term) :
    Reads (Construct.ifOf.term a [x]) (ofTerm (Construct.ifOf.term a [x])) := by
  cases x with
  | list members =>
    rw [ofTerm_ifOf]
    exact .ifOf
  | tuple | atom | number | string => exact .malformed (.ifOf rfl)

private theorem reads_receive (a x : Term) :
    Reads (Construct.receive.term a [x]) (ofTerm (Construct.receive.term a [x])) := by
  cases x with
  | list members =>
    rw [ofTerm_receive]
    exact .receive
  | tuple | atom | number | string => exact .malformed (.receive rfl)

private theorem reads_block (a x : Term) :
    Reads (Construct.block.term a [x]) (ofTerm (Construct.block.term a [x])) := by
  cases x with
  | list members =>
    rw [ofTerm_block]
    exact .block
  | tuple | atom | number | string => exact .malformed (.block rfl)

private theorem reads_mapUpdate (a source x : Term) :
    Reads (Construct.mapUpdate.term a [source, x])
      (ofTerm (Construct.mapUpdate.term a [source, x])) := by
  cases x with
  | list entries =>
    rw [ofTerm_mapUpdate]
    exact .mapUpdate
  | tuple | atom | number | string => exact .mapUpdateHole rfl

private theorem reads_caseOf (a value x : Term) :
    Reads (Construct.caseOf.term a [value, x]) (ofTerm (Construct.caseOf.term a [value, x])) := by
  cases x with
  | list clauses =>
    rw [ofTerm_caseOf]
    exact .caseOf
  | tuple | atom | number | string => exact .malformed (.caseOf rfl)

private theorem reads_receiveAfter (a x timeout y : Term) :
    Reads (Construct.receiveAfter.term a [x, timeout, y])
      (ofTerm (Construct.receiveAfter.term a [x, timeout, y])) := by
  cases x with
  | list clauses =>
    cases y with
    | list after =>
      rw [ofTerm_receiveAfter]
      exact .receiveAfter
    | tuple | atom | number | string => exact .malformed (.receiveAfter (.inr rfl))
  | tuple | atom | number | string => exact .malformed (.receiveAfter (.inl rfl))

private theorem reads_construct (construct : Construct) (isExpression : construct.isExpression)
    (a : Term) {payload : List Term} (filled : payload.length = construct.payload.length) :
    Reads (construct.term a payload) (ofTerm (construct.term a payload)) := by
  cases construct with
  | «variable» =>
    match payload, filled with
    | [.atom _], _ => exact .variable
    | [.tuple _], _ | [.list _], _ | [.number _], _ | [.string _], _ =>
      exact .malformed (.variable rfl)
  | atom =>
    match payload, filled with
    | [.atom _], _ => exact .atom
    | [.tuple _], _ | [.list _], _ | [.number _], _ | [.string _], _ => exact .malformed (.atom rfl)
  | integer => match payload, filled with | [x], _ => exact reads_integer a x
  | float => match payload, filled with | [x], _ => exact reads_float a x
  | char => match payload, filled with | [x], _ => exact reads_char a x
  | string => match payload, filled with | [x], _ => exact reads_string a x
  | emptyList => match payload, filled with | [], _ => exact .emptyList
  | cons => match payload, filled with | [_, _], _ => exact .cons
  | tuple => match payload, filled with | [x], _ => exact reads_tuple a x
  | map => match payload, filled with | [x], _ => exact reads_map a x
  | ifOf => match payload, filled with | [x], _ => exact reads_ifOf a x
  | receive => match payload, filled with | [x], _ => exact reads_receive a x
  | block => match payload, filled with | [x], _ => exact reads_block a x
  | mapUpdate => match payload, filled with | [source, x], _ => exact reads_mapUpdate a source x
  | matching => match payload, filled with | [_, _], _ => exact .matching
  | binaryOp => match payload, filled with | [_, _, _], _ => exact .binaryOp
  | unaryOp => match payload, filled with | [_, _], _ => exact .unaryOp
  | call => match payload, filled with | [function, x], _ => exact reads_call a function x
  | funValue => match payload, filled with | [x], _ => exact reads_funValue a x
  | caseOf => match payload, filled with | [value, x], _ => exact reads_caseOf a value x
  | receiveAfter =>
    match payload, filled with
    | [x, timeout, y], _ => exact reads_receiveAfter a x timeout y
  | mapFieldAssoc | mapFieldExact | remote | clause | function | «attribute» | endOfFile | type
  | typeOfAnything | userType | remoteType | annotatedType => cases isExpression

private theorem ofTerm_unsupported {t : Term}
    (foreign : ∀ c, t.construct? = some c → c.isExpression = false) : ofTerm t = ofUnsupported t := by
  rw [ofTerm.eq_def]
  split
  · split
    -- Every case but the last names an expression.
    all_goals first
      | rfl
      | next found => exact absurd (foreign _ found) (by decide)
  · rfl

theorem reads (t : Term) : Reads t (ofTerm t) := by
  -- Constructs of forms and types are read as no expression, like terms without a construct.
  by_cases found : ∃ construct, t.construct? = some construct ∧ construct.isExpression = true
  · obtain ⟨construct, found, isExpression⟩ := found
    obtain ⟨a, payload, rfl, filled⟩ := Term.eq_term_of_construct? found
    exact reads_construct construct isExpression a filled
  · have foreign : ∀ c, t.construct? = some c → c.isExpression = false := by
      intro c isC
      exact Bool.eq_false_iff.2 fun isExpression => found ⟨c, isC, isExpression⟩
    rw [ofTerm_unsupported foreign]
    exact .unsupported foreign

theorem ofTerm_malformed {t : Term} {what : Placeholder} (malformed : t.Malformed what) :
    ofTerm t = .placeholder what := by
  cases malformed with
  | @«variable» a x noAtom | @atom a x noAtom =>
    cases x with
    | atom => cases noAtom
    | tuple | list | number | string => rfl
  | @integer a x noNumber | @float a x noNumber =>
    cases x with
    | number => cases noNumber
    | tuple | list | atom | string => rfl
  | @char a x noInteger =>
    cases x with
    | number value =>
      cases value with
      | integer => cases noInteger
      | float | beyond => rfl
    | tuple | list | atom | string => rfl
  | string noText => rw [ofTerm_chars, noText]
  | @tuple a x noList | @closure a x noList | @caseOf a v x noList | @ifOf a x noList
  | @receive a x noList | @block a x noList =>
    cases x with
    | list => cases noList
    | tuple | atom | number | string => rfl
  | call noList => exact ofTerm_call_malformed noList
  | localCapture unknown =>
    rw [ofTerm_captureLocal]
    rcases unknown with missing | missing
    · rw [missing]
    · rw [missing]
      cases Term.name? _ <;> rfl
  | funValue closure localCapture remoteCapture =>
    exact ofTerm_funValue_malformed closure localCapture remoteCapture
  | @receiveAfter a x t y noList =>
    cases x with
    | list =>
      cases y with
      | list => exact absurd noList (by simp [Term.list?])
      | tuple | atom | number | string => rfl
    | tuple | atom | number | string => rfl

theorem Reads.ofTerm_eq {t : Term} {e : Expr} (read : Reads t e) : ofTerm t = e := by
  cases read with
  | unsupported foreign => exact ofTerm_unsupported foreign
  | malformed malformed => exact ofTerm_malformed malformed
  | «variable» | atom | integer | float | char | emptyList | cons | matching | binaryOp
  | unaryOp => rfl
  | string spells => exact ofTerm_string spells
  | tuple => exact ofTerm_tuple
  | map => exact ofTerm_map
  | @mapHole a x noList | @mapUpdateHole a source x noList =>
    cases x with
    | list => cases noList
    | tuple | atom | number | string => rfl
  | mapUpdate => exact ofTerm_mapUpdate
  | localCall named => exact ofTerm_localCall named
  | remoteCall moduleNamed named => exact ofTerm_remoteCall moduleNamed named
  | dynamicCall nameless => exact ofTerm_dynamicCall nameless
  | valueCall nameless notRemote => exact ofTerm_valueCall nameless notRemote
  | closure => exact ofTerm_closure
  | localCapture named counted => exact ofTerm_localCapture named counted
  | remoteCapture moduleNamed named counted =>
    exact ofTerm_remoteCapture moduleNamed named counted
  | dynamicCapture unknown => exact ofTerm_dynamicCapture unknown
  | caseOf => exact ofTerm_caseOf
  | ifOf => exact ofTerm_ifOf
  | receive => exact ofTerm_receive
  | receiveAfter => exact ofTerm_receiveAfter
  | block => exact ofTerm_block

end Expr

end Legible
