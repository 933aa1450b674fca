import Legible.Expr.Syntax

/-!
Reading expressions from terms.

The construct of a term is found first, and its payload is then read position by position.
-/

set_option autoImplicit false

namespace Legible

namespace Term

def name? (t : Term) : Option String :=
  t.atom?.or t.quotedAtom?

def count? (t : Term) : Option Int64 :=
  t.integer?.or (if Construct.integer.accepts t then (t.element? 2).bind integer? else none)

end Term

namespace Expr

def ofUnsupported (t : Term) : Expr :=
  .unsupported (.ofExpression t) t.line?

def ofName : Term → Expr
  | .atom name => .variable name
  | _ => .placeholder .name

/-- A part of a capture, where atoms and numbers may stand as they are. -/
def capturePart (t : Term) (read : Expr) : Expr :=
  match t with
  | .atom name => .atom name
  | .number value => .bareNumber value
  | _ => read

mutual

def ofTerm (t : Term) : Expr :=
  match t with
  | .tuple (.atom tag :: annotation :: payload) =>
    match Construct.find? tag (payload.length + 2) with
    | some .variable =>
      match payload with
      | [name] => ofName name
      | _ => .placeholder .name
    | some .atom =>
      match payload with
      | [.atom name] => .atom name
      | _ => .placeholder .code
    | some .integer =>
      match payload with
      | [.number value] => .integer value
      | _ => .placeholder .code
    | some .float =>
      match payload with
      | [.number value] => .float value
      | _ => .placeholder .code
    | some .char =>
      match payload with
      | [.number (.integer code)] => .char code
      | _ => .placeholder .code
    | some .string =>
      match payload with
      | [value] =>
        match value.chars? with
        | some text => .string text
        | none => .placeholder .string
      | _ => .placeholder .string
    | some .emptyList => .list []
    | some .cons =>
      match payload with
      | [head, tail] => cons (ofTerm head) (ofTerm tail)
      | _ => .placeholder .code
    | some .tuple =>
      match payload with
      | [.list elements] => .tuple (ofTerms elements)
      | _ => .placeholder .code
    | some .map =>
      match payload with
      | [.list entries] => .map (entriesOfTerms entries)
      -- The braces stay, with a placeholder between them.
      | _ => .map [.single (.placeholder .code)]
    | some .mapUpdate =>
      match payload with
      | [source, .list entries] => .mapUpdate (ofTerm source) (entriesOfTerms entries)
      | [source, _] => .mapUpdate (ofTerm source) [.single (.placeholder .code)]
      | _ => .placeholder .code
    | some .matching =>
      match payload with
      | [pattern, value] => .matching (ofTerm pattern) (ofTerm value)
      | _ => .placeholder .code
    | some .binaryOp =>
      match payload with
      | [operator, left, right] => .binaryOp operator.atom? (ofTerm left) (ofTerm right)
      | _ => .placeholder .code
    | some .unaryOp =>
      match payload with
      | [operator, operand] => .unaryOp operator.atom? (ofTerm operand)
      | _ => .placeholder .code
    | some .call =>
      match payload with
      | [.atom name, .list arguments] => .localCall name (ofTerms arguments)
      | [function, .list arguments] =>
        -- An atom construct names a function as a bare atom does.
        let value := ofTerm function
        match function with
        | .tuple (.atom calledTag :: _ :: called) =>
          match Construct.find? calledTag (called.length + 2), called with
          | some .atom, [.atom name] => .localCall name (ofTerms arguments)
          | some .remote, [module, name] =>
            match module.name?, name.name? with
            | some module, some name => .remoteCall module name (ofTerms arguments)
            | _, _ => .dynamicCall (ofTerm module) (ofTerm name) (ofTerms arguments)
          | _, _ => .valueCall value (ofTerms arguments)
        | _ => .valueCall value (ofTerms arguments)
      | _ => .placeholder .code
    | some .funValue =>
      match payload with
      | [.tuple [.atom "clauses", .list clauses]] => .closure (clausesOfTerms clauses)
      | [.tuple [.atom "clauses", _]] => .placeholder .clauses
      | [.tuple [.atom "function", name, arity]] =>
        match name.name?, arity.count? with
        | some name, some arity => .localCapture name arity
        | _, _ => .placeholder .code
      | [.tuple [.atom "function", module, name, arity]] =>
        -- One part that is known only at run time makes the whole capture dynamic.
        match module.name?, name.name?, arity.count? with
        | some module, some name, some arity => .remoteCapture module name arity
        | _, _, _ =>
          .dynamicCapture (capturePart module (ofTerm module)) (capturePart name (ofTerm name))
            (capturePart arity (ofTerm arity))
      | _ => .placeholder .code
    | some .caseOf =>
      match payload with
      | [value, .list clauses] => .caseOf (ofTerm value) (clausesOfTerms clauses)
      | _ => .placeholder .code
    | some .ifOf =>
      match payload with
      | [.list clauses] => .ifOf (clausesOfTerms clauses)
      | _ => .placeholder .code
    | some .receive =>
      match payload with
      | [.list clauses] => .receive (clausesOfTerms clauses)
      | _ => .placeholder .code
    | some .receiveAfter =>
      match payload with
      | [.list clauses, timeout, .list after] =>
        .receiveAfter (clausesOfTerms clauses) (ofTerm timeout) (ofTerms after)
      | _ => .placeholder .code
    | some .block =>
      match payload with
      | [.list body] => .block (ofTerms body)
      | _ => .placeholder .code
    | _ => ofUnsupported (.tuple (.atom tag :: annotation :: payload))
  | t => ofUnsupported t

def ofTerms : List Term → List Expr
  | [] => []
  | t :: rest => ofTerm t :: ofTerms rest

/-- A term that is no map field is an element of its own. -/
def entriesOfTerms : List Term → List Entry
  | [] => []
  | t :: rest =>
    let element := ofTerm t
    let entry : Entry :=
      match t with
      | .tuple (.atom tag :: _ :: payload) =>
        match Construct.find? tag (payload.length + 2), payload with
        | some .mapFieldAssoc, [key, value] => .pair (ofTerm key) (ofTerm value)
        | some .mapFieldExact, [key, value] => .pair (ofTerm key) (ofTerm value)
        | _, _ => .single element
      | _ => .single element
    entry :: entriesOfTerms rest

def clauseOfTerm (t : Term) : Clause :=
  match t with
  | .tuple (.atom tag :: _ :: payload) =>
    match Construct.find? tag (payload.length + 2), payload with
    | some .clause, [patterns, guards, body] =>
      .clause (listOfTerm patterns) (guardsOfTerm guards) (listOfTerm body)
    | _, _ => .malformed
  | _ => .malformed

def listOfTerm : Term → List Expr
  | .list elements => ofTerms elements
  | _ => []

def guardsOfTerm : Term → List (List Expr)
  | .list guards => guardsOfTerms guards
  | _ => []

/-- A guard that is no list of tests is a test itself. -/
def guardsOfTerms : List Term → List (List Expr)
  | [] => []
  | t :: rest =>
    let test := ofTerm t
    let tests : List Expr :=
      match t with
      | .list tests => ofTerms tests
      | _ => [test]
    tests :: guardsOfTerms rest

def clausesOfTerms : List Term → List Clause
  | [] => []
  | t :: rest => clauseOfTerm t :: clausesOfTerms rest

end

end Expr

end Legible
