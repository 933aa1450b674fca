import Legible.Typespec.Syntax

/-!
Reading types and signatures from terms.

Most types are one construct with a subtype. Subtypes with a notation of their own come first; any
other one is a builtin type with a name and arguments.
-/

set_option autoImplicit false

namespace Legible

namespace Term

def subtype? (t : Term) : Option String :=
  if Construct.type.accepts t then (t.element? 2).bind atom? else none

def typeArguments? (t : Term) : Option (List Term) :=
  (t.element? 3).bind list?

def isZero (t : Term) : Bool :=
  ((t.element? 2).bind integer?).any fun value => value == 0

def isAnyParameters (t : Term) : Bool :=
  Construct.typeOfAnything.accepts t && (t.element? 2).bind atom? == some "any"

end Term

def Field.ofTypespec : Typespec → Field
  | .builtin name arguments =>
    if name = "map_field_assoc" then
      match arguments with
      | [key, value] => .optional key value
      | _ => .malformed
    else if name = "map_field_exact" then
      match arguments with
      | [key, value] => .required key value
      | _ => .malformed
    else .single (.builtin name arguments)
  | type => .single type

def Parameters.ofTerm (t : Term) (read : Typespec) : Parameters :=
  if t.isAnyParameters then .any
  else if t.subtype? = some "product" then
    match read with
    | .product members => .types members
    | _ => .malformed
  else .single read

namespace Typespec

def ofBareSubtype (subtype : String) : Typespec :=
  match subtype with
  | "fun" => .function .malformed
  | "product" | "union" | "range" | "binary" => .placeholder .type
  | "nil" => .emptyList
  | name => .builtin name []

def ofUnsupported (t : Term) : Typespec :=
  .unsupported (.type t.label) t.line?

mutual

def ofTerm (t : Term) : Typespec :=
  match t with
  | .tuple (.atom tag :: annotation :: payload) =>
    match Construct.find? tag (payload.length + 2) with
    | some .type =>
      match payload with
      | [.atom subtype, .list arguments] =>
        match subtype, arguments with
        | "fun", [] => .function .any
        | "fun", [parameters, result] =>
          .function (.arrow (Parameters.ofTerm parameters (ofTerm parameters)) (ofTerm result))
        | "fun", _ => .function .malformed
        | "product", members => .product (ofTerms members)
        | "union", members => .union (ofTerms members)
        | "tuple", elements => .tuple (ofTerms elements)
        | "list", [element] => .list (ofTerm element)
        | "list", _ => .builtin "list" []
        | "nonempty_list", [element] => .nonemptyList (ofTerm element)
        | "nonempty_list", _ => .builtin "nonempty_list" []
        | "nil", _ => .emptyList
        | "map", fields => .map ((ofTerms fields).map Field.ofTypespec)
        | "range", [low, high] => .range (ofTerm low) (ofTerm high)
        | "range", _ => .placeholder .type
        | "binary", [size, unit] =>
          .bits (if size.isZero then none else some (ofTerm size))
            (if unit.isZero then none else some (ofTerm unit))
        | "binary", _ => .placeholder .type
        -- Whatever has no notation of its own is named as it is.
        | name, arguments => .builtin name (ofTerms arguments)
      | [.atom subtype, _] => ofBareSubtype subtype
      | _ => ofUnsupported (.tuple (.atom tag :: annotation :: payload))
    | some .userType =>
      match payload with
      | [.atom name, .list arguments] => .user name (ofTerms arguments)
      | _ => .placeholder .type
    | some .remoteType =>
      match payload with
      | [.list [module, name, .list arguments]] =>
        match module.quotedAtom?, name.quotedAtom? with
        | some module, some name => .remote module name (ofTerms arguments)
        | _, _ => .placeholder .type
      | _ => .placeholder .type
    | some .annotatedType =>
      match payload with
      | [.list [name, type]] => .annotated (ofTerm name) (ofTerm type)
      | _ => .placeholder .type
    | some .variable =>
      match payload with
      | [.atom name] => .variable name
      | _ => .placeholder .name
    | some .atom =>
      match payload with
      | [.atom name] => .atom name
      | _ => .placeholder .code
    | some .integer =>
      match payload with
      | [.number value] => .integer value
      | _ => .placeholder .code
    | some .unaryOp =>
      match payload with
      | [operator, operand] => .unaryOp operator.atom? (ofTerm operand)
      | _ => .placeholder .type
    | some .binaryOp =>
      match payload with
      | [operator, left, right] => .binaryOp operator.atom? (ofTerm left) (ofTerm right)
      | _ => .placeholder .type
    | _ => ofUnsupported (.tuple (.atom tag :: annotation :: payload))
  | t => ofUnsupported t

def ofTerms : List Term → List Typespec
  | [] => []
  | t :: rest => ofTerm t :: ofTerms rest

end

end Typespec

def Constraint.ofTerm (t : Term) : Constraint :=
  if t.subtype? = some "constraint" then
    match t.typeArguments? with
    | some [_, .list [name, type]] => .bound (.ofTerm name) (.ofTerm type)
    | _ => .malformed
  else .single (.ofTerm t)

def BoundedSignature.ofTerm? (t : Term) : Option BoundedSignature :=
  if t.subtype? = some "bounded_fun" then
    match t.typeArguments? with
    | some [signature, constraints] =>
      some (.bounded (Typespec.ofTerm signature).signature?
        ((constraints.list?.getD []).map Constraint.ofTerm))
    | _ => some .malformed
  else none

/-- A signature, a signature with bounds, or else any type. -/
def Specification.ofTerm (t : Term) : Specification :=
  let type := Typespec.ofTerm t
  match type.signature?, BoundedSignature.ofTerm? t with
  | some signature, _ => .function signature
  | none, some signature => .bounded signature
  | none, none => .other type

end Legible
