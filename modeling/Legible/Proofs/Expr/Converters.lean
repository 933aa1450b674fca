import Legible.Expr.Render
import Legible.Proofs.Converter
import Legible.Proofs.Term.Visits

/-!
Converters of expressions, one for each construct that is an expression.

What the parts of a construct read as is left open. Each converter reads what `Expr.ofTerm` reads,
as soon as that is so of the parts, so a reading that goes through the converters in any order, also
for the parts, is `Expr.ofTerm`: `Expr.reads_in_order_iff`.
-/

set_option autoImplicit false

namespace Legible

namespace Expr

def write (layout : Layout) (position : Position) (scope : Scope) (e : Expr) :
    Recorder (String × Scope) :=
  let rendering := e.render layout position scope
  record (rendering.text, rendering.declared) rendering.warnings

section
variable (part : Term → Expr)

def entryFrom (t : Term) : Entry :=
  match [Construct.mapFieldAssoc, .mapFieldExact].find? (·.accepts t) with
  | some field =>
    match field.field? t "key", field.field? t "value" with
    | some key, some value => .pair (part key) (part value)
    | _, _ => .single (.placeholder .code)
  | none => .single (part t)

def entriesFrom : Option (List Term) → List Entry
  | some entries => entries.map (entryFrom part)
  | none => [.single (.placeholder .code)]

def testsFrom : Term → List Expr
  | .list tests => tests.map part
  | t => [part t]

def clauseFrom (t : Term) : Clause :=
  if Construct.clause.accepts t then
    let list := fun name => ((Construct.clause.field? t name).bind Term.list?).getD []
    .clause ((list "patterns").map part) ((list "guards").map (testsFrom part))
      ((list "body").map part)
  else .malformed

def callFrom (function : Term) (arguments : List Expr) : Expr :=
  match function.name? with
  | some name => .localCall name arguments
  | none =>
    if Construct.remote.accepts function then
      let field := Construct.remote.field? function
      match field "module", field "function" with
      | some module, some name =>
        match module.name?, name.name? with
        | some module, some name => .remoteCall module name arguments
        | _, _ => .dynamicCall (part module) (part name) arguments
      | _, _ => .placeholder .code
    else .valueCall (part function) arguments

def functionFrom : Term → Expr
  | .tuple [.atom "clauses", clauses] =>
    match clauses.list? with
    | some clauses => .closure (clauses.map (clauseFrom part))
    | none => .placeholder .clauses
  | .tuple [.atom "function", name, arity] =>
    match name.name?, arity.count? with
    | some name, some arity => .localCapture name arity
    | _, _ => .placeholder .code
  | .tuple [.atom "function", module, name, arity] =>
    match module.name?, name.name?, arity.count? with
    | some module, some name, some arity => .remoteCapture module name arity
    | _, _, _ =>
      .dynamicCapture (capturePart module (part module)) (capturePart name (part name))
        (capturePart arity (part arity))
  | _ => .placeholder .code

end

open Converter (ofConstruct)

def leafConverters : List (Converter Expr) :=
  [ofConstruct .variable (fun field => .variable <$> (field "name").bind Term.atom?)
      (.placeholder .name),
    ofConstruct .atom (fun field => .atom <$> (field "value").bind Term.atom?)
      (.placeholder .code),
    ofConstruct .integer (fun field => .integer <$> (field "value").bind Term.number?)
      (.placeholder .code),
    ofConstruct .float (fun field => .float <$> (field "value").bind Term.number?)
      (.placeholder .code),
    ofConstruct .char (fun field => .char <$> (field "value").bind Term.integer?)
      (.placeholder .code),
    ofConstruct .string (fun field => .string <$> (field "value").bind Term.chars?)
      (.placeholder .string)]

section
variable (part : Term → Expr)

def collectionConverters : List (Converter Expr) :=
  [ofConstruct .emptyList (fun _ => none) (.list []),
    ofConstruct .cons
      (fun field => do return cons (part (← field "head")) (part (← field "tail")))
      (.placeholder .code),
    ofConstruct .tuple
      (fun field => do return .tuple ((← (field "elements").bind Term.list?).map part))
      (.placeholder .code),
    ofConstruct .map
      (fun field => some (.map (entriesFrom part ((field "associations").bind Term.list?))))
      (.placeholder .code),
    ofConstruct .mapUpdate
      (fun field => do
        return .mapUpdate (part (← field "map"))
          (entriesFrom part ((field "associations").bind Term.list?)))
      (.placeholder .code)]

def operationConverters : List (Converter Expr) :=
  [ofConstruct .matching
      (fun field => do return .matching (part (← field "pattern")) (part (← field "expression")))
      (.placeholder .code),
    ofConstruct .binaryOp
      (fun field => do
        return .binaryOp (← field "operator").atom? (part (← field "left"))
          (part (← field "right")))
      (.placeholder .code),
    ofConstruct .unaryOp
      (fun field => do return .unaryOp (← field "operator").atom? (part (← field "operand")))
      (.placeholder .code)]

def functionConverters : List (Converter Expr) :=
  [ofConstruct .call
      (fun field => do
        return callFrom part (← field "function")
          ((← (field "arguments").bind Term.list?).map part))
      (.placeholder .code),
    ofConstruct .funValue (fun field => functionFrom part <$> field "payload")
      (.placeholder .code)]

def controlConverters : List (Converter Expr) :=
  [ofConstruct .caseOf
      (fun field => do
        return .caseOf (part (← field "expression"))
          ((← (field "clauses").bind Term.list?).map (clauseFrom part)))
      (.placeholder .code),
    ofConstruct .ifOf
      (fun field => do return .ifOf ((← (field "clauses").bind Term.list?).map (clauseFrom part)))
      (.placeholder .code),
    ofConstruct .receive
      (fun field => do
        return .receive ((← (field "clauses").bind Term.list?).map (clauseFrom part)))
      (.placeholder .code),
    ofConstruct .receiveAfter
      (fun field => do
        return .receiveAfter ((← (field "clauses").bind Term.list?).map (clauseFrom part))
          (part (← field "timeout")) ((← (field "after").bind Term.list?).map part))
      (.placeholder .code),
    ofConstruct .block
      (fun field => do return .block ((← (field "body").bind Term.list?).map part))
      (.placeholder .code)]

/-- The converters of expressions, by what the parts of a construct read as. -/
def converters : List (Converter Expr) :=
  leafConverters ++ collectionConverters part ++ operationConverters part ++
    functionConverters part ++ controlConverters part

def IsOrder (order : List (Converter Expr)) : Prop :=
  order.Perm (converters part)

/-- Each construct that is an expression has one converter, in the order of all constructs. -/
theorem guard_converters : (converters part).map Converter.guard =
    (Construct.all.filter Construct.isExpression).map .construct :=
  rfl

end

section
variable {part : Term → Expr} {t u : Term}

theorem members_eq (agree : t.AgreeInside ofTerm part) (inside : u.Inside t) :
    (u.list?.getD []).map part = u.members.map ofTerm := by
  cases u with
  | list => exact agree.map_eq inside
  | tuple | atom | number | string => rfl

theorem entryFrom_eq (agree : t.AgreeInside ofTerm part) (inside : u.Inside t) :
    entryFrom part u = entryOfTerm u := by
  generalize read : entryOfTerm u = entry
  have reads : ReadsEntry u entry := read ▸ readsEntry u
  cases reads with
  | assoc | exact =>
    show Entry.pair (part _) (part _) = _
    have deeper := agree.inside inside
    rw [deeper _ (.of_payload (by simp)), deeper _ (.of_payload (by simp))]
  | single noAssoc noExact =>
    have noField : [Construct.mapFieldAssoc, .mapFieldExact].find? (·.accepts u) = none := by
      simpa [Term.construct?_eq_some_iff] using And.intro noAssoc noExact
    rw [entryFrom, noField, agree u inside]

theorem entriesFrom_eq (agree : t.AgreeInside ofTerm part) {entries : List Term}
    (list : (Term.list entries).Inside t) :
    entriesFrom part (some entries) = entries.map entryOfTerm :=
  List.map_congr_left fun _ member => entryFrom_eq agree (.of_member member list)

theorem testsFrom_eq (agree : t.AgreeInside ofTerm part) (inside : u.Inside t) :
    testsFrom part u = testsOfTerm u := by
  cases u with
  | list => exact agree.map_eq inside
  | tuple | atom | number | string =>
    show [part _] = [ofTerm _]
    rw [agree _ inside]

theorem guards_eq (agree : t.AgreeInside ofTerm part) (inside : u.Inside t) :
    (u.list?.getD []).map (testsFrom part) = u.members.map testsOfTerm := by
  cases u with
  | list =>
    exact List.map_congr_left fun _ member => testsFrom_eq agree (.of_member member inside)
  | tuple | atom | number | string => rfl

theorem clauseFrom_eq (agree : u.AgreeInside ofTerm part) : clauseFrom part u = clauseOfTerm u := by
  generalize read : clauseOfTerm u = clause
  have reads : ReadsClause u clause := read ▸ readsClause u
  cases reads with
  | @clause a patterns guards body =>
    show Clause.clause ((patterns.list?.getD []).map part)
      ((guards.list?.getD []).map (testsFrom part)) ((body.list?.getD []).map part) = _
    rw [members_eq agree (.of_payload (by simp)), guards_eq agree (.of_payload (by simp)),
      members_eq agree (.of_payload (by simp))]
  | malformed noClause => exact if_neg (noClause ∘ Term.construct?_eq_some_iff.2)

theorem clauses_eq (agree : t.AgreeInside ofTerm part) {clauses : List Term}
    (list : (Term.list clauses).Inside t) :
    clauses.map (clauseFrom part) = clauses.map clauseOfTerm :=
  List.map_congr_left fun _ member => clauseFrom_eq (agree.inside (.of_member member list))

theorem callFrom_eq {a : Term} {arguments : List Term}
    (agree : (Construct.call.term a [u, .list arguments]).AgreeInside ofTerm part) :
    callFrom part u (arguments.map part) =
      ofTerm (Construct.call.term a [u, .list arguments]) := by
  rw [agree.map_eq (.of_payload (by simp))]
  have called : u.Inside (Construct.call.term a [u, .list arguments]) := .of_payload (by simp)
  unfold callFrom
  cases named : u.name? with
  | some name => rw [ofTerm_localCall named]
  | none =>
    by_cases isRemote : u.construct? = some .remote
    · obtain ⟨b, payload, rfl, filled⟩ := Term.eq_term_of_construct? isRemote
      match payload, filled with
      | [module, name], _ =>
        have inRemote := agree.inside called
        show (match module.name?, name.name? with
          | some moduleName, some functionName => _
          | _, _ => dynamicCall (part module) (part name) _) = _
        rw [inRemote module (.of_payload (by simp)), inRemote name (.of_payload (by simp))]
        exact ofTerm_callRemote.symm
    · rw [if_neg (isRemote ∘ Term.construct?_eq_some_iff.2), agree u called,
        ofTerm_valueCall named isRemote]

theorem functionFrom_eq {a : Term}
    (agree : (Construct.funValue.term a [u]).AgreeInside ofTerm part) :
    functionFrom part u = ofTerm (Construct.funValue.term a [u]) := by
  have payload : u.Inside (Construct.funValue.term a [u]) := .of_payload (by simp)
  unfold functionFrom
  split
  next clauses =>
    cases clauses with
    | list clauses =>
      rw [ofTerm_closure]
      exact congrArg closure (clauses_eq agree ((Term.Inside.of_tagged _ (by simp)).trans payload))
    | tuple | atom | number | string => rfl
  next => rfl
  next module name arity =>
    have inside := agree.inside payload
    rw [inside module (.of_tagged _ (by simp)), inside name (.of_tagged _ (by simp)),
      inside arity (.of_tagged _ (by simp))]
    exact ofTerm_captureRemote.symm
  next x closure localCapture remoteCapture =>
    exact (ofTerm_funValue_malformed closure localCapture remoteCapture).symm

theorem follows_of_leaf {converter : Converter Expr} (member : converter ∈ leafConverters) :
    converter.Follows ofTerm part := by
  simp only [leafConverters, List.mem_cons, List.not_mem_nil, or_false] at member
  rcases member with rfl | rfl | rfl | rfl | rfl | rfl
  all_goals refine .ofConstruct fun a payload filled _ => ?_
  -- The value of a string is spelled out, and the one of a character must be an integer.
  case inr.inr.inr.inr.inr =>
    match payload, filled with
    | [x], _ =>
      show (string <$> x.chars?).getD (.placeholder .string) =
        match x.chars? with
        | some text => .string text
        | none => .placeholder .string
      cases x.chars? <;> rfl
  case inr.inr.inr.inr.inl =>
    match payload, filled with
    | [.number value], _ => cases value <;> rfl
    | [.tuple _], _ | [.list _], _ | [.atom _], _ | [.string _], _ => rfl
  all_goals
    match payload, filled with
    | [x], _ => cases x <;> rfl

theorem follows_of_collection {converter : Converter Expr}
    (member : converter ∈ collectionConverters part) : converter.Follows ofTerm part := by
  simp only [collectionConverters, List.mem_cons, List.not_mem_nil, or_false] at member
  rcases member with rfl | rfl | rfl | rfl | rfl
  all_goals refine .ofConstruct fun a payload filled agree => ?_
  · match payload, filled with
    | [], _ => rfl
  · match payload, filled with
    | [head, tail], _ =>
      show cons (part head) (part tail) = cons (ofTerm head) (ofTerm tail)
      rw [agree head (.of_payload (by simp)), agree tail (.of_payload (by simp))]
  · match payload, filled with
    | [.list _], _ =>
      rw [ofTerm_tuple]
      exact congrArg tuple (agree.map_eq (.of_payload (by simp)))
    | [.tuple _], _ | [.atom _], _ | [.number _], _ | [.string _], _ => rfl
  · match payload, filled with
    | [.list _], _ =>
      rw [ofTerm_map]
      exact congrArg map (entriesFrom_eq agree (.of_payload (by simp)))
    | [.tuple _], _ | [.atom _], _ | [.number _], _ | [.string _], _ => rfl
  · match payload, filled with
    | [source, .list entries], _ =>
      rw [ofTerm_mapUpdate, ← agree source (.of_payload (by simp))]
      exact congrArg (mapUpdate _) (entriesFrom_eq agree (.of_payload (by simp)))
    | [source, .tuple _], _ | [source, .atom _], _ | [source, .number _], _
    | [source, .string _], _ =>
      exact congrArg (mapUpdate · _) (agree source (.of_payload (by simp)))

theorem follows_of_operation {converter : Converter Expr}
    (member : converter ∈ operationConverters part) : converter.Follows ofTerm part := by
  simp only [operationConverters, List.mem_cons, List.not_mem_nil, or_false] at member
  rcases member with rfl | rfl | rfl
  all_goals refine .ofConstruct fun a payload filled agree => ?_
  · match payload, filled with
    | [pattern, value], _ =>
      show matching (part pattern) (part value) = matching (ofTerm pattern) (ofTerm value)
      rw [agree pattern (.of_payload (by simp)), agree value (.of_payload (by simp))]
  · match payload, filled with
    | [operator, left, right], _ =>
      show binaryOp operator.atom? (part left) (part right) =
        binaryOp operator.atom? (ofTerm left) (ofTerm right)
      rw [agree left (.of_payload (by simp)), agree right (.of_payload (by simp))]
  · match payload, filled with
    | [operator, operand], _ =>
      exact congrArg (unaryOp operator.atom?) (agree operand (.of_payload (by simp)))

theorem follows_of_function {converter : Converter Expr}
    (member : converter ∈ functionConverters part) : converter.Follows ofTerm part := by
  simp only [functionConverters, List.mem_cons, List.not_mem_nil, or_false] at member
  rcases member with rfl | rfl
  all_goals refine .ofConstruct fun a payload filled agree => ?_
  · match payload, filled with
    | [function, .list arguments], _ => exact callFrom_eq agree
    | [function, .tuple _], _ | [function, .atom _], _ | [function, .number _], _
    | [function, .string _], _ => exact (ofTerm_call_malformed rfl).symm
  · match payload, filled with
    | [x], _ => exact functionFrom_eq agree

theorem follows_of_control {converter : Converter Expr}
    (member : converter ∈ controlConverters part) : converter.Follows ofTerm part := by
  simp only [controlConverters, List.mem_cons, List.not_mem_nil, or_false] at member
  rcases member with rfl | rfl | rfl | rfl | rfl
  all_goals refine .ofConstruct fun a payload filled agree => ?_
  · match payload, filled with
    | [value, .list clauses], _ =>
      rw [ofTerm_caseOf, ← agree value (.of_payload (by simp))]
      exact congrArg (caseOf _) (clauses_eq agree (.of_payload (by simp)))
    | [_, .tuple _], _ | [_, .atom _], _ | [_, .number _], _ | [_, .string _], _ => rfl
  · match payload, filled with
    | [.list _], _ =>
      rw [ofTerm_ifOf]
      exact congrArg ifOf (clauses_eq agree (.of_payload (by simp)))
    | [.tuple _], _ | [.atom _], _ | [.number _], _ | [.string _], _ => rfl
  · match payload, filled with
    | [.list _], _ =>
      rw [ofTerm_receive]
      exact congrArg receive (clauses_eq agree (.of_payload (by simp)))
    | [.tuple _], _ | [.atom _], _ | [.number _], _ | [.string _], _ => rfl
  · match payload, filled with
    | [.list clauses, timeout, .list after], _ =>
      rw [ofTerm_receiveAfter, ← agree timeout (.of_payload (by simp)),
        ← clauses_eq agree (.of_payload (by simp)), ← agree.map_eq (.of_payload (by simp))]
      rfl
    | [.list _, _, .tuple _], _ | [.list _, _, .atom _], _ | [.list _, _, .number _], _
    | [.list _, _, .string _], _ | [.tuple _, _, _], _ | [.atom _, _, _], _
    | [.number _, _, _], _ | [.string _, _, _], _ => rfl
  · match payload, filled with
    | [.list _], _ =>
      rw [ofTerm_block]
      exact congrArg block (agree.map_eq (.of_payload (by simp)))
    | [.tuple _], _ | [.atom _], _ | [.number _], _ | [.string _], _ => rfl

theorem follows_of_mem {converter : Converter Expr} (member : converter ∈ converters part) :
    converter.Follows ofTerm part := by
  simp only [converters, List.mem_append, or_assoc] at member
  rcases member with leaf | collection | operation | function | control
  · exact follows_of_leaf leaf
  · exact follows_of_collection collection
  · exact follows_of_operation operation
  · exact follows_of_function function
  · exact follows_of_control control

theorem isSpecific_of_mem {converter : Converter Expr} (member : converter ∈ converters part) :
    converter.guard.isSpecific := by
  obtain ⟨construct, listed, same⟩ := Converter.exists_key (guard_converters part) member
  rw [same]
  show construct != .type
  rw [bne_iff_ne]
  rintro rfl
  cases (List.mem_filter.1 listed).2

theorem exists_accepts_iff :
    (∃ converter ∈ converters part, converter.guard.accepts t) ↔ t.isExpression := by
  rw [Term.isExpression, Option.any_eq_true]
  constructor
  · rintro ⟨converter, member, accepted⟩
    obtain ⟨construct, listed, same⟩ := Converter.exists_key (guard_converters part) member
    rw [same, Guard.accepts_construct_iff] at accepted
    exact ⟨construct, accepted, (List.mem_filter.1 listed).2⟩
  · rintro ⟨construct, found, isExpression⟩
    obtain ⟨converter, member, same⟩ := Converter.exists_of_key (guard_converters part)
      (List.mem_filter.2 ⟨construct.mem_all, isExpression⟩)
    exact ⟨converter, member, same ▸ Guard.accepts_construct_iff.2 found⟩

theorem firstRead_of_isOrder {order : List (Converter Expr)} (isOrder : IsOrder part order)
    (agree : t.AgreeInside ofTerm part) :
    Converter.firstRead order t = if t.isExpression then some (ofTerm t) else none := by
  refine Converter.firstRead_eq_ite ?_ fun converter first accepted => ?_
  · simp only [isOrder.mem_iff, exists_accepts_iff]
  · have member := isOrder.mem_iff.1 (List.mem_of_find?_eq_some first)
    exact follows_of_mem member t accepted agree

theorem ofTerm_of_not_isExpression (foreign : ¬ t.isExpression) : ofTerm t = ofUnsupported t := by
  refine (Reads.unsupported fun c found => ?_).ofTerm_eq
  rw [Term.isExpression, found] at foreign
  exact Bool.eq_false_iff.2 foreign

theorem getD_firstRead {order : List (Converter Expr)} (isOrder : IsOrder part order)
    (agree : t.AgreeInside ofTerm part) :
    (Converter.firstRead order t).getD (ofUnsupported t) = ofTerm t := by
  rw [firstRead_of_isOrder isOrder agree]
  split
  next => rfl
  next foreign => exact (ofTerm_of_not_isExpression foreign).symm

/-- A reading goes through the converters in some order, which may be another one for each term, and
reads all parts by itself, if and only if it is `ofTerm`. -/
theorem reads_in_order_iff {read : Term → Expr} :
    (∀ t, ∃ order, IsOrder read order ∧
      read t = (Converter.firstRead order t).getD (ofUnsupported t)) ↔ read = ofTerm :=
  Converter.reads_in_order_iff getD_firstRead (.refl (converters ofTerm))

end

end Expr

end Legible
