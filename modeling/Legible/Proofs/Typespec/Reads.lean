import Legible.Proofs.Expr.Reads
import Legible.Typespec.Reading
import Legible.Typespec.Render

/-!
What a term reads as in the place of a type, with one case for each way in which a construct can be
filled, and the members of types as lists.
-/

set_option autoImplicit false

namespace Legible

def Construct.isType : Construct → Bool
  | .type | .userType | .remoteType | .annotatedType | .variable | .atom | .integer | .unaryOp
  | .binaryOp => true
  | _ => false

namespace Term

theorem construct?_of_subtype? {t : Term} {name : String} (found : t.subtype? = some name) :
    t.construct? = some .type := by
  rw [construct?_eq_some_iff]
  unfold subtype? at found
  split at found
  next accepts => exact accepts
  next => cases found

theorem eq_term_of_subtype? {t : Term} {name : String} (found : t.subtype? = some name) :
    ∃ a x, t = Construct.type.term a [.atom name, x] := by
  obtain ⟨a, payload, rfl, filled⟩ := eq_term_of_construct? (construct?_of_subtype? found)
  match payload, filled with
  | [subtype, x], _ =>
    have isAtom : subtype.atom? = some name := found
    cases subtype with
    | atom =>
      cases isAtom
      exact ⟨a, x, rfl⟩
    | tuple | list | number | string => cases isAtom

end Term

namespace Typespec

theorem ofTerms_eq_map (terms : List Term) : ofTerms terms = terms.map ofTerm := by
  induction terms with
  | nil => rfl
  | cons t rest ih => simp [ofTerms, ih]

@[simp] theorem texts_eq_map (types : List Typespec) : texts types = types.map text := by
  induction types with
  | nil => rfl
  | cons type rest ih => simp [texts, ih]

@[simp] theorem warningsOf_eq_flatMap (types : List Typespec) :
    warningsOf types = types.flatMap warnings := by
  induction types with
  | nil => rfl
  | cons type rest ih => simp [warningsOf, ih]

end Typespec

namespace Field

@[simp] theorem texts_eq_map (fields : List Field) : texts fields = fields.map text := by
  induction fields with
  | nil => rfl
  | cons field rest ih => simp [texts, ih]

@[simp] theorem warningsOf_eq_flatMap (fields : List Field) :
    warningsOf fields = fields.flatMap warnings := by
  induction fields with
  | nil => rfl
  | cons field rest ih => simp [warningsOf, ih]

end Field

namespace Typespec

def notated : List String :=
  ["fun", "product", "union", "tuple", "list", "nonempty_list", "nil", "map", "range", "binary"]

variable {a : Term} {members : List Term}

theorem ofTerm_builtin {name : String} (plain : name ∉ notated) :
    ofTerm (Construct.type.term a [.atom name, .list members]) =
      .builtin name (members.map ofTerm) := by
  have known : Construct.find? Construct.type.tag
      ([Term.atom name, Term.list members].length + 2) = some .type := rfl
  simp only [notated, List.mem_cons, List.not_mem_nil, or_false, not_or] at plain
  rw [ofTerm.eq_def]
  simp only [known]
  -- All cases but the last name a subtype that the hypothesis excludes.
  split <;> simp_all [ofTerms_eq_map]

theorem ofTerm_product : ofTerm (Construct.type.term a [.atom "product", .list members]) =
    .product (members.map ofTerm) := by
  rw [← ofTerms_eq_map]
  rfl

theorem ofTerm_union : ofTerm (Construct.type.term a [.atom "union", .list members]) =
    .union (members.map ofTerm) := by
  rw [← ofTerms_eq_map]
  rfl

theorem ofTerm_tuple : ofTerm (Construct.type.term a [.atom "tuple", .list members]) =
    .tuple (members.map ofTerm) := by
  rw [← ofTerms_eq_map]
  rfl

theorem ofTerm_map : ofTerm (Construct.type.term a [.atom "map", .list members]) =
    .map (members.map fun t => .ofTypespec (ofTerm t)) := by
  have read : ofTerm (Construct.type.term a [.atom "map", .list members]) =
    .map ((ofTerms members).map Field.ofTypespec) := rfl
  rw [read, ofTerms_eq_map, List.map_map]
  rfl

theorem ofTerm_list : ofTerm (Construct.type.term a [.atom "list", .list members]) =
    match members with
    | [element] => .list (ofTerm element)
    | _ => .builtin "list" [] := by
  match members with
  | [] | [_] | _ :: _ :: _ => rfl

theorem ofTerm_nonemptyList :
    ofTerm (Construct.type.term a [.atom "nonempty_list", .list members]) =
      match members with
      | [element] => .nonemptyList (ofTerm element)
      | _ => .builtin "nonempty_list" [] := by
  match members with
  | [] | [_] | _ :: _ :: _ => rfl

theorem ofTerm_function {b result : Term} :
    ofTerm (Construct.type.term a [.atom "fun",
        .list [Construct.type.term b [.atom "product", .list members], result]]) =
      .function (.arrow (.types (members.map ofTerm)) (ofTerm result)) := by
  rw [← ofTerms_eq_map]
  rfl

theorem ofTerm_user {name : String} :
    ofTerm (Construct.userType.term a [.atom name, .list members]) =
      .user name (members.map ofTerm) := by
  rw [← ofTerms_eq_map]
  rfl

theorem ofTerm_remote {b c : Term} {module name : String} :
    ofTerm (Construct.remoteType.term a [.list [Construct.atom.term b [.atom module],
        Construct.atom.term c [.atom name], .list members]]) =
      .remote module name (members.map ofTerm) := by
  rw [← ofTerms_eq_map]
  rfl

inductive Malformed : Term → Placeholder → Prop
  | range {a : Term} {members : List Term} : members.length ≠ 2 →
      Malformed (Construct.type.term a [.atom "range", .list members]) .type
  | bits {a : Term} {members : List Term} : members.length ≠ 2 →
      Malformed (Construct.type.term a [.atom "binary", .list members]) .type
  | user {a name x : Term} : name.atom? = none ∨ x.list? = none →
      Malformed (Construct.userType.term a [name, x]) .type
  | remote {a x : Term} :
      (∀ module name arguments, x = .list [module, name, .list arguments] →
        module.quotedAtom? = none ∨ name.quotedAtom? = none) →
      Malformed (Construct.remoteType.term a [x]) .type
  | annotated {a x : Term} : (∀ name type, x ≠ .list [name, type]) →
      Malformed (Construct.annotatedType.term a [x]) .type
  | variable {a x : Term} : x.atom? = none → Malformed (Construct.variable.term a [x]) .name
  | atom {a x : Term} : x.atom? = none → Malformed (Construct.atom.term a [x]) .code
  | integer {a x : Term} : x.number? = none → Malformed (Construct.integer.term a [x]) .code

inductive Reads : Term → Typespec → Prop
  | unsupported {t : Term} : (∀ c, t.construct? = some c → c.isType = false) →
      Reads t (ofUnsupported t)
  | nameless {a x y : Term} : x.atom? = none →
      Reads (Construct.type.term a [x, y]) (ofUnsupported (Construct.type.term a [x, y]))
  | malformed {t : Term} {what : Placeholder} : Malformed t what → Reads t (.placeholder what)
  | bare {a x : Term} {subtype : String} : x.list? = none →
      Reads (Construct.type.term a [.atom subtype, x]) (ofBareSubtype subtype)
  | anyFunction {a : Term} :
      Reads (Construct.type.term a [.atom "fun", .list []]) (.function .any)
  | function {a parameters result : Term} :
      Reads (Construct.type.term a [.atom "fun", .list [parameters, result]])
        (.function (.arrow (Parameters.ofTerm parameters (ofTerm parameters)) (ofTerm result)))
  | oddFunction {a : Term} {members : List Term} : members ≠ [] → members.length ≠ 2 →
      Reads (Construct.type.term a [.atom "fun", .list members]) (.function .malformed)
  | product {a : Term} {members : List Term} :
      Reads (Construct.type.term a [.atom "product", .list members])
        (.product (members.map ofTerm))
  | union {a : Term} {members : List Term} :
      Reads (Construct.type.term a [.atom "union", .list members]) (.union (members.map ofTerm))
  | tuple {a : Term} {members : List Term} :
      Reads (Construct.type.term a [.atom "tuple", .list members]) (.tuple (members.map ofTerm))
  | list {a element : Term} :
      Reads (Construct.type.term a [.atom "list", .list [element]]) (.list (ofTerm element))
  | anyList {a : Term} {members : List Term} : members.length ≠ 1 →
      Reads (Construct.type.term a [.atom "list", .list members]) (.builtin "list" [])
  | nonemptyList {a element : Term} :
      Reads (Construct.type.term a [.atom "nonempty_list", .list [element]])
        (.nonemptyList (ofTerm element))
  | anyNonemptyList {a : Term} {members : List Term} : members.length ≠ 1 →
      Reads (Construct.type.term a [.atom "nonempty_list", .list members])
        (.builtin "nonempty_list" [])
  | emptyList {a : Term} {members : List Term} :
      Reads (Construct.type.term a [.atom "nil", .list members]) .emptyList
  | map {a : Term} {members : List Term} :
      Reads (Construct.type.term a [.atom "map", .list members])
        (.map (members.map fun t => .ofTypespec (ofTerm t)))
  | range {a low high : Term} :
      Reads (Construct.type.term a [.atom "range", .list [low, high]])
        (.range (ofTerm low) (ofTerm high))
  | bits {a size unit : Term} :
      Reads (Construct.type.term a [.atom "binary", .list [size, unit]])
        (.bits (if size.isZero then none else some (ofTerm size))
          (if unit.isZero then none else some (ofTerm unit)))
  | builtin {a : Term} {name : String} {members : List Term} : name ∉ notated →
      Reads (Construct.type.term a [.atom name, .list members])
        (.builtin name (members.map ofTerm))
  | user {a : Term} {name : String} {members : List Term} :
      Reads (Construct.userType.term a [.atom name, .list members])
        (.user name (members.map ofTerm))
  | remote {a module name : Term} {moduleName functionName : String} {members : List Term} :
      module.quotedAtom? = some moduleName → name.quotedAtom? = some functionName →
      Reads (Construct.remoteType.term a [.list [module, name, .list members]])
        (.remote moduleName functionName (members.map ofTerm))
  | annotated {a name type : Term} :
      Reads (Construct.annotatedType.term a [.list [name, type]])
        (.annotated (ofTerm name) (ofTerm type))
  | variable {a : Term} {name : String} :
      Reads (Construct.variable.term a [.atom name]) (.variable name)
  | atom {a : Term} {name : String} : Reads (Construct.atom.term a [.atom name]) (.atom name)
  | integer {a : Term} {value : Number} :
      Reads (Construct.integer.term a [.number value]) (.integer value)
  | unaryOp {a operator operand : Term} :
      Reads (Construct.unaryOp.term a [operator, operand])
        (.unaryOp operator.atom? (ofTerm operand))
  | binaryOp {a operator left right : Term} :
      Reads (Construct.binaryOp.term a [operator, left, right])
        (.binaryOp operator.atom? (ofTerm left) (ofTerm right))

section
variable {a x y : Term}

private theorem ofTerm_nameless (nameless : x.atom? = none) :
    ofTerm (Construct.type.term a [x, y]) = ofUnsupported (Construct.type.term a [x, y]) := by
  cases x with
  | atom => cases nameless
  | tuple | list | number | string => rfl

private theorem ofTerm_bare {subtype : String} (noList : x.list? = none) :
    ofTerm (Construct.type.term a [.atom subtype, x]) = ofBareSubtype subtype := by
  cases x with
  | list => cases noList
  | tuple | atom | number | string => rfl

private theorem ofTerm_oddFunction (some : members ≠ []) (odd : members.length ≠ 2) :
    ofTerm (Construct.type.term a [.atom "fun", .list members]) = .function .malformed := by
  match members with
  | [] => exact absurd rfl some
  | [_, _] => exact absurd rfl odd
  | [_] | _ :: _ :: _ :: _ => rfl

private theorem ofTerm_anyList (several : members.length ≠ 1) :
    ofTerm (Construct.type.term a [.atom "list", .list members]) = .builtin "list" [] := by
  match members with
  | [_] => exact absurd rfl several
  | [] | _ :: _ :: _ => rfl

private theorem ofTerm_anyNonemptyList (several : members.length ≠ 1) :
    ofTerm (Construct.type.term a [.atom "nonempty_list", .list members]) =
      .builtin "nonempty_list" [] := by
  match members with
  | [_] => exact absurd rfl several
  | [] | _ :: _ :: _ => rfl

private theorem ofTerm_remote_quoted {module name : Term} {moduleName functionName : String}
    (quotedModule : module.quotedAtom? = some moduleName)
    (quotedName : name.quotedAtom? = some functionName) :
    ofTerm (Construct.remoteType.term a [.list [module, name, .list members]]) =
      .remote moduleName functionName (members.map ofTerm) := by
  obtain ⟨b, rfl⟩ := Term.quotedAtom?_eq_some_iff.1 quotedModule
  obtain ⟨c, rfl⟩ := Term.quotedAtom?_eq_some_iff.1 quotedName
  exact ofTerm_remote

private theorem ofTerm_remote_malformed {a x : Term}
    (unquoted : ∀ module name arguments, x = .list [module, name, .list arguments] →
      module.quotedAtom? = none ∨ name.quotedAtom? = none) :
    ofTerm (Construct.remoteType.term a [x]) = .placeholder .type := by
  have known : Construct.find? Construct.remoteType.tag ([x].length + 2) = some .remoteType := rfl
  rw [ofTerm.eq_def]
  simp only [known]
  split
  next module name arguments same =>
    cases same
    rcases unquoted module name arguments rfl with missing | missing
    · simp [missing]
    · simp [missing]
  next => rfl

private theorem ofTerm_annotated_malformed {a x : Term}
    (unnamed : ∀ name type, x ≠ .list [name, type]) :
    ofTerm (Construct.annotatedType.term a [x]) = .placeholder .type := by
  have known : Construct.find? Construct.annotatedType.tag ([x].length + 2) =
      some .annotatedType := rfl
  rw [ofTerm.eq_def]
  simp only [known]
  split
  next same =>
    cases same
    exact absurd rfl (unnamed _ _)
  next => rfl

theorem ofTerm_malformed {t : Term} {what : Placeholder} (malformed : Malformed t what) :
    ofTerm t = .placeholder what := by
  cases malformed with
  | @range a members odd | @bits a members odd =>
    match members with
    | [_, _] => exact absurd rfl odd
    | [] | [_] | _ :: _ :: _ :: _ => rfl
  | @user a name x wrong =>
    cases name with
    | atom name =>
      cases x with
      | list => exact absurd wrong (by simp [Term.atom?, Term.list?])
      | tuple | atom | number | string => rfl
    | tuple | list | number | string => rfl
  | remote unquoted => exact ofTerm_remote_malformed unquoted
  | annotated unnamed => exact ofTerm_annotated_malformed unnamed
  | @«variable» a x noAtom | @atom a x noAtom =>
    cases x with
    | atom => cases noAtom
    | tuple | list | number | string => rfl
  | @integer a x noNumber =>
    cases x with
    | number => cases noNumber
    | tuple | list | atom | string => rfl

private theorem ofTerm_foreign {t : Term}
    (foreign : ∀ c, t.construct? = some c → c.isType = false) : ofTerm t = ofUnsupported t := by
  rw [ofTerm.eq_def]
  split
  · split
    -- Every case but the last names a type.
    all_goals first
      | rfl
      | next found => exact absurd (foreign _ found) (by decide)
  · rfl

theorem Reads.ofTerm_eq {t : Term} {type : Typespec} (read : Reads t type) : ofTerm t = type := by
  cases read with
  | unsupported foreign => exact ofTerm_foreign foreign
  | nameless noAtom => exact ofTerm_nameless noAtom
  | malformed malformed => exact ofTerm_malformed malformed
  | bare noList => exact ofTerm_bare noList
  | oddFunction some odd => exact ofTerm_oddFunction some odd
  | product => exact ofTerm_product
  | union => exact ofTerm_union
  | tuple => exact ofTerm_tuple
  | anyList several => exact ofTerm_anyList several
  | anyNonemptyList several => exact ofTerm_anyNonemptyList several
  | map => exact ofTerm_map
  | builtin plain => exact ofTerm_builtin plain
  | user => exact ofTerm_user
  | remote quotedModule quotedName => exact ofTerm_remote_quoted quotedModule quotedName
  | anyFunction | function | list | nonemptyList | emptyList | range | bits | annotated
  | «variable» | atom | integer | unaryOp | binaryOp => rfl

private theorem reads_notated {a : Term} {name : String} (known : name ∈ notated)
    (members : List Term) :
    ∃ type, Reads (Construct.type.term a [.atom name, .list members]) type := by
  simp only [notated, List.mem_cons, List.not_mem_nil, or_false] at known
  -- The cases follow the names in the order of `notated`.
  rcases known with rfl | rfl | rfl | rfl | rfl | rfl | rfl | rfl | rfl | rfl
  · match members with
    | [] => exact ⟨_, .anyFunction⟩
    | [_, _] => exact ⟨_, .function⟩
    | [_] | _ :: _ :: _ :: _ => exact ⟨_, .oddFunction (by simp) (by simp)⟩
  · exact ⟨_, .product⟩
  · exact ⟨_, .union⟩
  · exact ⟨_, .tuple⟩
  · match members with
    | [_] => exact ⟨_, .list⟩
    | [] | _ :: _ :: _ => exact ⟨_, .anyList (by simp)⟩
  · match members with
    | [_] => exact ⟨_, .nonemptyList⟩
    | [] | _ :: _ :: _ => exact ⟨_, .anyNonemptyList (by simp)⟩
  · exact ⟨_, .emptyList⟩
  · exact ⟨_, .map⟩
  · match members with
    | [_, _] => exact ⟨_, .range⟩
    | [] | [_] | _ :: _ :: _ :: _ => exact ⟨_, .malformed (.range (by simp))⟩
  · match members with
    | [_, _] => exact ⟨_, .bits⟩
    | [] | [_] | _ :: _ :: _ :: _ => exact ⟨_, .malformed (.bits (by simp))⟩

private theorem reads_type (a x y : Term) :
    ∃ type, Reads (Construct.type.term a [x, y]) type := by
  cases x with
  | atom name =>
    cases y with
    | list members =>
      by_cases notated : name ∈ notated
      · exact reads_notated notated members
      · exact ⟨_, .builtin notated⟩
    | tuple | atom | number | string => exact ⟨_, .bare rfl⟩
  | tuple | list | number | string => exact ⟨_, .nameless rfl⟩

private theorem reads_userType (a x y : Term) :
    ∃ type, Reads (Construct.userType.term a [x, y]) type := by
  cases x with
  | atom =>
    cases y with
    | list => exact ⟨_, .user⟩
    | tuple | atom | number | string => exact ⟨_, .malformed (.user (.inr rfl))⟩
  | tuple | list | number | string => exact ⟨_, .malformed (.user (.inl rfl))⟩

private theorem reads_remoteType (a x : Term) :
    ∃ type, Reads (Construct.remoteType.term a [x]) type := by
  by_cases quoted : ∃ module name arguments, x = .list [module, name, .list arguments] ∧
      module.quotedAtom?.isSome ∧ name.quotedAtom?.isSome
  · obtain ⟨module, name, arguments, rfl, quotedModule, quotedName⟩ := quoted
    obtain ⟨moduleName, quotedModule⟩ := Option.isSome_iff_exists.1 quotedModule
    obtain ⟨functionName, quotedName⟩ := Option.isSome_iff_exists.1 quotedName
    exact ⟨_, .remote quotedModule quotedName⟩
  · refine ⟨_, .malformed (.remote ?_)⟩
    rintro module name arguments rfl
    cases quotedModule : module.quotedAtom? with
    | none => exact .inl rfl
    | some =>
      cases quotedName : name.quotedAtom? with
      | none => exact .inr rfl
      | some =>
        exact absurd ⟨module, name, arguments, rfl, by simp [quotedModule], by simp [quotedName]⟩
          quoted

private theorem reads_annotatedType (a x : Term) :
    ∃ type, Reads (Construct.annotatedType.term a [x]) type := by
  by_cases named : ∃ name type, x = .list [name, type]
  · obtain ⟨name, type, rfl⟩ := named
    exact ⟨_, .annotated⟩
  · exact ⟨_, .malformed (.annotated fun name type same => named ⟨name, type, same⟩)⟩

private theorem reads_construct (construct : Construct) (isType : construct.isType) (a : Term)
    {payload : List Term} (filled : payload.length = construct.payload.length) :
    ∃ type, Reads (construct.term a payload) type := by
  cases construct with
  | type => match payload, filled with | [x, y], _ => exact reads_type a x y
  | userType => match payload, filled with | [x, y], _ => exact reads_userType a x y
  | remoteType => match payload, filled with | [x], _ => exact reads_remoteType a x
  | annotatedType => match payload, filled with | [x], _ => exact reads_annotatedType a x
  | «variable» =>
    match payload, filled with
    | [.atom _], _ => exact ⟨_, .variable⟩
    | [.tuple _], _ | [.list _], _ | [.number _], _ | [.string _], _ =>
      exact ⟨_, .malformed (.variable rfl)⟩
  | atom =>
    match payload, filled with
    | [.atom _], _ => exact ⟨_, .atom⟩
    | [.tuple _], _ | [.list _], _ | [.number _], _ | [.string _], _ =>
      exact ⟨_, .malformed (.atom rfl)⟩
  | integer =>
    match payload, filled with
    | [.number _], _ => exact ⟨_, .integer⟩
    | [.tuple _], _ | [.list _], _ | [.atom _], _ | [.string _], _ =>
      exact ⟨_, .malformed (.integer rfl)⟩
  | unaryOp => match payload, filled with | [_, _], _ => exact ⟨_, .unaryOp⟩
  | binaryOp => match payload, filled with | [_, _, _], _ => exact ⟨_, .binaryOp⟩
  | float | char | string | emptyList | cons | tuple | map | mapUpdate | mapFieldAssoc
  | mapFieldExact | matching | call | remote | funValue | caseOf | ifOf | receive | receiveAfter
  | block | clause | function | «attribute» | endOfFile | typeOfAnything => cases isType

theorem reads (t : Term) : Reads t (ofTerm t) := by
  -- What is read is fixed by the relation, so it is enough that every term reads as something.
  have reading : ∃ type, Reads t type := by
    by_cases found : ∃ construct, t.construct? = some construct ∧ construct.isType = true
    · obtain ⟨construct, found, isType⟩ := found
      obtain ⟨a, payload, rfl, filled⟩ := Term.eq_term_of_construct? found
      exact reads_construct construct isType a filled
    · refine ⟨_, .unsupported fun c isC => ?_⟩
      exact Bool.eq_false_iff.2 fun isType => found ⟨c, isC, isType⟩
  obtain ⟨type, read⟩ := reading
  exact read.ofTerm_eq ▸ read

end

end Typespec

namespace Field

open Typespec (ofTerm)

variable {a key value : Term}

theorem ofTypespec_assoc :
    ofTypespec (ofTerm (Construct.type.term a [.atom "map_field_assoc", .list [key, value]])) =
      .optional (ofTerm key) (ofTerm value) :=
  rfl

theorem ofTypespec_exact :
    ofTypespec (ofTerm (Construct.type.term a [.atom "map_field_exact", .list [key, value]])) =
      .required (ofTerm key) (ofTerm value) :=
  rfl

end Field

end Legible
