import Legible.Proofs.Converter
import Legible.Proofs.Typespec.Reads

/-!
Converters of types: those of subtypes with a notation of their own, the one of any other subtype,
and those of all other constructs that are types.

The converter of any subtype also takes the subtypes with a notation, so it must stand after their
converters; apart from that the order does not matter: `Typespec.firstRead_of_isOrder`.
-/

set_option autoImplicit false

namespace Legible

namespace Term

def isType (t : Term) : Bool :=
  t.subtype?.isSome || t.construct?.any fun construct => construct.isType && construct != .type

end Term

namespace Typespec

def write (type : Typespec) : Recorder String :=
  record type.text type.warnings

section
variable (part : Term → Typespec)

def signatureFrom : Option (List Term) → Signature
  | some [] => .any
  | some [parameters, result] => .arrow (.ofTerm parameters (part parameters)) (part result)
  | _ => .malformed

def sizeFrom (t : Term) : Option Typespec :=
  if t.isZero then none else some (part t)

def remoteFrom : Term → Option Typespec
  | .list [module, name, arguments] => do
    return .remote (← module.quotedAtom?) (← name.quotedAtom?) ((← arguments.list?).map part)
  | _ => none

open Converter (ofConstruct ofSubtype)

/-- The converters of subtypes with a notation of their own, by what their arguments read as. -/
def notatedConverters : List (Converter Typespec) :=
  [ofSubtype "fun" fun arguments => .function (signatureFrom part arguments),
    ofSubtype "product" fun
      | some members => .product (members.map part)
      | none => .placeholder .type,
    ofSubtype "union" fun
      | some members => .union (members.map part)
      | none => .placeholder .type,
    ofSubtype "tuple" fun
      | some elements => .tuple (elements.map part)
      | none => .builtin "tuple" [],
    ofSubtype "list" fun
      | some [element] => .list (part element)
      | _ => .builtin "list" [],
    ofSubtype "nonempty_list" fun
      | some [element] => .nonemptyList (part element)
      | _ => .builtin "nonempty_list" [],
    ofSubtype "nil" fun _ => .emptyList,
    ofSubtype "map" fun
      | some fields => .map (fields.map fun t => .ofTypespec (part t))
      | none => .builtin "map" [],
    ofSubtype "range" fun
      | some [low, high] => .range (part low) (part high)
      | _ => .placeholder .type,
    ofSubtype "binary" fun
      | some [size, unit] => .bits (sizeFrom part size) (sizeFrom part unit)
      | _ => .placeholder .type]

def builtinConverter : Converter Typespec where
  guard := .anySubtype
  read t :=
    match t.subtype? with
    | some name => .builtin name ((t.typeArguments?.getD []).map part)
    | none => ofUnsupported t

def constructConverters : List (Converter Typespec) :=
  [ofConstruct .userType
      (fun field => do
        return .user (← (field "name").bind Term.atom?)
          ((← (field "arguments").bind Term.list?).map part))
      (.placeholder .type),
    ofConstruct .remoteType
      (fun field => do remoteFrom part (← field "arguments"))
      (.placeholder .type),
    ofConstruct .annotatedType
      (fun field => do
        match ← (field "arguments").bind Term.list? with
        | [name, type] => return .annotated (part name) (part type)
        | _ => none)
      (.placeholder .type),
    ofConstruct .variable (fun field => .variable <$> (field "name").bind Term.atom?)
      (.placeholder .name),
    ofConstruct .atom (fun field => .atom <$> (field "value").bind Term.atom?)
      (.placeholder .code),
    ofConstruct .integer (fun field => .integer <$> (field "value").bind Term.number?)
      (.placeholder .code),
    ofConstruct .unaryOp
      (fun field => do return .unaryOp (← field "operator").atom? (part (← field "operand")))
      (.placeholder .type),
    ofConstruct .binaryOp
      (fun field => do
        return .binaryOp (← field "operator").atom? (part (← field "left"))
          (part (← field "right")))
      (.placeholder .type)]

def converters : List (Converter Typespec) :=
  notatedConverters part ++ builtinConverter part :: constructConverters part

/-- Any order of the converters in which the one of all subtypes stands after those of subtypes with
a notation. -/
def IsOrder (order : List (Converter Typespec)) : Prop :=
  order.Perm (converters part) ∧ ∃ before after,
    order = before ++ builtinConverter part :: after ∧ notatedConverters part ⊆ before

theorem guard_notatedConverters :
    (notatedConverters part).map Converter.guard = notated.map .subtype :=
  rfl

def untyped : List Construct :=
  [.userType, .remoteType, .annotatedType, .variable, .atom, .integer, .unaryOp, .binaryOp]

theorem guard_constructConverters :
    (constructConverters part).map Converter.guard = untyped.map .construct :=
  rfl

theorem nodup_guard_converters : ((converters part).map Converter.guard).Nodup := by
  show (notated.map Guard.subtype ++ Guard.anySubtype :: untyped.map Guard.construct).Nodup
  decide

end

section
variable {part : Term → Typespec} {t : Term}

private theorem follows_ofSubtype {name : String} {read : Option (List Term) → Typespec}
    (bare : read none = ofBareSubtype name)
    (reads : ∀ a members,
      (Construct.type.term a [.atom name, .list members]).AgreeInside ofTerm part →
      read (some members) = ofTerm (Construct.type.term a [.atom name, .list members])) :
    (Converter.ofSubtype name read).Follows ofTerm part := by
  intro t accepted agree
  obtain ⟨a, x, rfl⟩ := Term.eq_term_of_subtype? (Guard.accepts_subtype_iff.1 accepted)
  cases x with
  | list members => exact reads a members agree
  | tuple | atom | number | string => exact bare

private theorem remoteFrom_eq {a x : Term}
    (agree : (Construct.remoteType.term a [x]).AgreeInside ofTerm part) :
    (remoteFrom part x).getD (.placeholder .type) = ofTerm (Construct.remoteType.term a [x]) := by
  cases known : remoteFrom part x with
  | some type =>
    unfold remoteFrom at known
    split at known
    next module name arguments =>
      simp only [Option.bind_eq_bind, Option.bind_eq_some_iff, Term.list?_eq_some_iff] at known
      obtain ⟨moduleName, quotedModule, functionName, quotedName, members, rfl, same⟩ := known
      cases same
      rw [agree.map_eq (.of_first_list (by simp)),
        (Reads.remote quotedModule quotedName).ofTerm_eq]
      rfl
    next => cases known
  | none =>
    refine (ofTerm_malformed (.remote ?_)).symm
    rintro module name arguments rfl
    cases quotedModule : module.quotedAtom? with
    | none => exact .inl rfl
    | some =>
      cases quotedName : name.quotedAtom? with
      | none => exact .inr rfl
      | some => simp [remoteFrom, quotedModule, quotedName, Term.list?] at known

theorem follows_of_notated {converter : Converter Typespec}
    (member : converter ∈ notatedConverters part) : converter.Follows ofTerm part := by
  simp only [notatedConverters, List.mem_cons, List.not_mem_nil, or_false] at member
  -- The cases follow the names in the order of `notated`.
  rcases member with rfl | rfl | rfl | rfl | rfl | rfl | rfl | rfl | rfl | rfl
  all_goals refine follows_ofSubtype rfl fun a members agree => ?_
  · match members with
    | [parameters, result] =>
      rw [signatureFrom, agree parameters (.of_second_list (by simp)),
        agree result (.of_second_list (by simp))]
      rfl
    | [] | [_] | _ :: _ :: _ :: _ => rfl
  · rw [ofTerm_product]
    exact congrArg product (agree.map_eq (.of_payload (by simp)))
  · rw [ofTerm_union]
    exact congrArg union (agree.map_eq (.of_payload (by simp)))
  · rw [ofTerm_tuple]
    exact congrArg tuple (agree.map_eq (.of_payload (by simp)))
  · match members with
    | [element] => exact congrArg list (agree element (.of_second_list (by simp)))
    | [] | _ :: _ :: _ => rfl
  · match members with
    | [element] => exact congrArg nonemptyList (agree element (.of_second_list (by simp)))
    | [] | _ :: _ :: _ => rfl
  · rfl
  · rw [ofTerm_map]
    refine congrArg map (List.map_congr_left fun field member => ?_)
    rw [agree field (.of_second_list member)]
  · match members with
    | [low, high] =>
      show range (part low) (part high) = range (ofTerm low) (ofTerm high)
      rw [agree low (.of_second_list (by simp)), agree high (.of_second_list (by simp))]
    | [] | [_] | _ :: _ :: _ :: _ => rfl
  · match members with
    | [size, unit] =>
      show bits (sizeFrom part size) (sizeFrom part unit) = _
      rw [sizeFrom, sizeFrom, agree size (.of_second_list (by simp)),
        agree unit (.of_second_list (by simp))]
      rfl
    | [] | [_] | _ :: _ :: _ :: _ => rfl

theorem follows_of_construct {converter : Converter Typespec}
    (member : converter ∈ constructConverters part) : converter.Follows ofTerm part := by
  simp only [constructConverters, List.mem_cons, List.not_mem_nil, or_false] at member
  rcases member with rfl | rfl | rfl | rfl | rfl | rfl | rfl | rfl
  all_goals refine .ofConstruct fun a payload filled agree => ?_
  · match payload, filled with
    | [x, y], _ =>
      cases x with
      | atom name =>
        cases y with
        | list members =>
          rw [ofTerm_user]
          exact congrArg (user name) (agree.map_eq (.of_payload (by simp)))
        | tuple | atom | number | string => rfl
      | tuple | list | number | string => rfl
  · match payload, filled with
    | [x], _ => exact remoteFrom_eq agree
  · match payload, filled with
    | [.list [name, type]], _ =>
      show annotated (part name) (part type) = annotated (ofTerm name) (ofTerm type)
      rw [agree name (.of_first_list (by simp)),
        agree type (.of_first_list (by simp))]
    | [.list []], _ | [.list [_]], _ | [.list (_ :: _ :: _ :: _)], _
    | [.tuple _], _ | [.atom _], _ | [.number _], _ | [.string _], _ => rfl
  · match payload, filled with
    | [x], _ => cases x <;> rfl
  · match payload, filled with
    | [x], _ => cases x <;> rfl
  · match payload, filled with
    | [x], _ => cases x <;> rfl
  · match payload, filled with
    | [operator, operand], _ =>
      exact congrArg (unaryOp operator.atom?) (agree operand (.of_payload (by simp)))
  · match payload, filled with
    | [operator, left, right], _ =>
      show binaryOp operator.atom? (part left) (part right) =
        binaryOp operator.atom? (ofTerm left) (ofTerm right)
      rw [agree left (.of_payload (by simp)), agree right (.of_payload (by simp))]

private theorem ofBareSubtype_of_plain {name : String} (plain : name ∉ notated) :
    ofBareSubtype name = .builtin name [] := by
  simp only [notated, List.mem_cons, List.not_mem_nil, or_false, not_or] at plain
  unfold ofBareSubtype
  split <;> simp_all

theorem read_builtinConverter {name : String} (found : t.subtype? = some name)
    (plain : name ∉ notated) (agree : t.AgreeInside ofTerm part) :
    (builtinConverter part).read t = ofTerm t := by
  obtain ⟨a, x, rfl⟩ := Term.eq_term_of_subtype? found
  cases x with
  | list members =>
    show builtin name (members.map part) = _
    rw [ofTerm_builtin plain, agree.map_eq (.of_payload (by simp))]
  | tuple | atom | number | string =>
    rw [(Reads.bare rfl).ofTerm_eq, ofBareSubtype_of_plain plain]
    rfl

theorem mem_untyped_iff {construct : Construct} :
    construct ∈ untyped ↔ (construct.isType && construct != .type) = true := by
  cases construct <;> decide

theorem isSpecific_of_mem {converter : Converter Typespec}
    (member : converter ∈ notatedConverters part ++ constructConverters part) :
    converter.guard.isSpecific := by
  rcases List.mem_append.1 member with notated | construct
  · obtain ⟨name, -, same⟩ := Converter.exists_key (guard_notatedConverters part) notated
    rw [same]
    rfl
  · obtain ⟨construct, listed, same⟩ :=
      Converter.exists_key (guard_constructConverters part) construct
    rw [same]
    exact (Bool.and_eq_true_iff.1 (mem_untyped_iff.1 listed)).2

theorem exists_accepts_iff :
    (∃ converter ∈ converters part, converter.guard.accepts t) ↔ t.isType := by
  simp only [converters, List.mem_append, List.mem_cons, Term.isType, Bool.or_eq_true,
    Option.isSome_iff_exists, Option.any_eq_true]
  constructor
  · rintro ⟨converter, notated | rfl | construct, accepted⟩
    · obtain ⟨name, -, same⟩ := Converter.exists_key (guard_notatedConverters part) notated
      rw [same, Guard.accepts_subtype_iff] at accepted
      exact .inl ⟨name, accepted⟩
    · exact .inl (Guard.accepts_anySubtype_iff.1 accepted)
    · obtain ⟨construct, listed, same⟩ :=
        Converter.exists_key (guard_constructConverters part) construct
      rw [same, Guard.accepts_construct_iff] at accepted
      exact .inr ⟨construct, accepted, mem_untyped_iff.1 listed⟩
  · rintro (typed | ⟨construct, found, isType⟩)
    · exact ⟨builtinConverter part, .inr (.inl rfl), Guard.accepts_anySubtype_iff.2 typed⟩
    · obtain ⟨converter, member, same⟩ :=
        Converter.exists_of_key (guard_constructConverters part) (mem_untyped_iff.2 isType)
      exact ⟨converter, .inr (.inr member), same ▸ Guard.accepts_construct_iff.2 found⟩

theorem ofTerm_of_not_isType (foreign : ¬ t.isType) : ofTerm t = ofUnsupported t := by
  simp only [Term.isType, Bool.or_eq_true, not_or, Bool.not_eq_true] at foreign
  obtain ⟨noSubtype, other⟩ := foreign
  by_cases found : t.construct? = some .type
  · obtain ⟨a, payload, rfl, filled⟩ := Term.eq_term_of_construct? found
    match payload, filled with
    | [x, y], _ =>
      have noAtom : x.atom? = none :=
        Option.not_isSome_iff_eq_none.1 (Bool.eq_false_iff.1 noSubtype)
      exact (Reads.nameless noAtom).ofTerm_eq
  · refine (Reads.unsupported fun c isC => ?_).ofTerm_eq
    rw [isC] at found other
    have known : c.isType → c = .type := by simpa using other
    exact Bool.eq_false_iff.2 fun isType => found (congrArg some (known isType))

private theorem builtinConverter_notMem {before after : List (Converter Typespec)}
    (perm : (before ++ builtinConverter part :: after).Perm (converters part)) :
    builtinConverter part ∉ before := by
  have nodup := ((perm.map Converter.guard).nodup_iff).2 (nodup_guard_converters part)
  rw [List.map_append, List.map_cons, List.nodup_append] at nodup
  exact fun member => nodup.2.2 _ (List.mem_map_of_mem member) _ List.mem_cons_self rfl

/-- If the converter of all subtypes is the first one to take a term, its subtype has no notation of
its own. -/
private theorem notMem_notated_of_first {order : List (Converter Typespec)}
    (isOrder : IsOrder part order) {name : String} (found : t.subtype? = some name)
    (first : order.find? (fun converter => converter.guard.accepts t) =
      some (builtinConverter part)) : name ∉ notated := by
  intro known
  obtain ⟨perm, before, after, rfl, specific⟩ := isOrder
  -- The converter of the subtype takes the term before.
  obtain ⟨other, listed, same⟩ := Converter.exists_of_key (guard_notatedConverters part) known
  have earlier : (before.find? fun converter => converter.guard.accepts t).isSome :=
    List.find?_isSome.2 ⟨other, specific listed, same ▸ Guard.accepts_subtype_iff.2 found⟩
  obtain ⟨winner, won⟩ := Option.isSome_iff_exists.1 earlier
  rw [List.find?_append, won, Option.some_or, Option.some.injEq] at first
  exact builtinConverter_notMem perm (first ▸ List.mem_of_find?_eq_some won)

theorem firstRead_of_isOrder {order : List (Converter Typespec)} (isOrder : IsOrder part order)
    (agree : t.AgreeInside ofTerm part) :
    Converter.firstRead order t = if t.isType then some (ofTerm t) else none := by
  refine Converter.firstRead_eq_ite ?_ fun converter first accepted => ?_
  · simp only [isOrder.1.mem_iff, exists_accepts_iff]
  · have member := isOrder.1.mem_iff.1 (List.mem_of_find?_eq_some first)
    simp only [converters, List.mem_append, List.mem_cons] at member
    rcases member with notated | rfl | construct
    · exact follows_of_notated notated t accepted agree
    · obtain ⟨name, found⟩ := Guard.accepts_anySubtype_iff.1 accepted
      exact read_builtinConverter found (notMem_notated_of_first isOrder found first) agree
    · exact follows_of_construct construct t accepted agree

theorem getD_firstRead {order : List (Converter Typespec)} (isOrder : IsOrder part order)
    (agree : t.AgreeInside ofTerm part) :
    (Converter.firstRead order t).getD (ofUnsupported t) = ofTerm t := by
  rw [firstRead_of_isOrder isOrder agree]
  split
  next => rfl
  next foreign => exact (ofTerm_of_not_isType foreign).symm

theorem isOrder_converters : IsOrder part (converters part) :=
  ⟨.refl _, _, _, rfl, List.Subset.refl _⟩

/-- A reading goes through the converters in some such order, which may be another one for each
term, and reads all parts by itself, if and only if it is `ofTerm`. -/
theorem reads_in_order_iff {read : Term → Typespec} :
    (∀ t, ∃ order, IsOrder read order ∧
      read t = (Converter.firstRead order t).getD (ofUnsupported t)) ↔ read = ofTerm :=
  Converter.reads_in_order_iff getD_firstRead isOrder_converters

end

end Typespec

end Legible
