import Legible.Operator
import Legible.Placeholder
import Legible.Warning

/-!
Expressions and patterns, with their clauses and map entries.

Each constructor is a construct whose parts are all of the right kind; a construct with a wrong
part is a placeholder, and a term that is no expression keeps the reason why.
-/

set_option autoImplicit false

namespace Legible

mutual

inductive Expr where
  | placeholder (what : Placeholder)
  | unsupported (cause : Unsupported) (line : Option Int64)
  | variable (name : String)
  | atom (name : String)
  | integer (value : Number)
  | float (value : Number)
  /-- A number that stands without a construct around it. -/
  | bareNumber (value : Number)
  | char (code : Int64)
  | string (text : String)
  | list (elements : List Expr)
  | openList (elements : List Expr) (tail : Expr)
  | tuple (elements : List Expr)
  | map (entries : List Entry)
  | mapUpdate (source : Expr) (entries : List Entry)
  | matching (pattern value : Expr)
  | binaryOp (operator : Option String) (left right : Expr)
  | unaryOp (operator : Option String) (operand : Expr)
  | localCall (function : String) (arguments : List Expr)
  | remoteCall (module function : String) (arguments : List Expr)
  /-- A call of a function whose module or name is known only when it runs. -/
  | dynamicCall (module function : Expr) (arguments : List Expr)
  | valueCall (function : Expr) (arguments : List Expr)
  | closure (clauses : List Clause)
  | localCapture (function : String) (arity : Int64)
  | remoteCapture (module function : String) (arity : Int64)
  | dynamicCapture (module function arity : Expr)
  | caseOf (value : Expr) (clauses : List Clause)
  | ifOf (clauses : List Clause)
  | receive (clauses : List Clause)
  | receiveAfter (clauses : List Clause) (timeout : Expr) (after : List Expr)
  | block (body : List Expr)

inductive Entry where
  | pair (key value : Expr)
  | single (element : Expr)

inductive Clause where
  /-- The guards are alternatives, and each is a list of tests that must all hold. -/
  | clause (patterns : List Expr) (guards : List (List Expr)) (body : List Expr)
  | malformed

end

namespace Expr

def cons (head : Expr) : Expr → Expr
  | .list elements => .list (head :: elements)
  | .openList elements tail => .openList (head :: elements) tail
  | tail => .openList [head] tail

def isSupported : Expr → Bool
  | .unsupported .. => false
  | _ => true

def isInfix : Expr → Bool
  | .binaryOp (some operator) _ _ => Operator.isInfix operator
  | _ => false

def isPrefix : Expr → Bool
  | .unaryOp (some operator) _ => Operator.isPrefix operator
  | _ => false

end Expr

end Legible
