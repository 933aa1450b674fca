import Legible.Placeholder

/-!
Operators of abstract code and how they are applied in source.

Some have an operator of their own there, the others are functions. An operator that is in neither
table is a function of the module that all operators are functions of.
-/

set_option autoImplicit false

namespace Legible

inductive Operator where
  | infixed (sign : String)
  | prefixed (sign : String)
  | called (function : String)
  deriving DecidableEq, Repr

namespace Operator

def binaryTable : List (String × Operator) := [
  ("+", .infixed "+"),
  ("-", .infixed "-"),
  ("*", .infixed "*"),
  ("/", .infixed "/"),
  ("==", .infixed "=="),
  ("/=", .infixed "!="),
  ("=:=", .infixed "==="),
  ("=/=", .infixed "!=="),
  ("<", .infixed "<"),
  (">", .infixed ">"),
  ("=<", .infixed "<="),
  (">=", .infixed ">="),
  ("++", .infixed "++"),
  ("--", .infixed "--"),
  ("andalso", .infixed "and"),
  ("and", .infixed "and"),
  ("orelse", .infixed "or"),
  ("or", .infixed "or"),
  ("div", .called "div"),
  ("rem", .called "rem"),
  ("!", .called "send"),
  ("xor", .called ":erlang.xor"),
  ("band", .called "Bitwise.band"),
  ("bor", .called "Bitwise.bor"),
  ("bxor", .called "Bitwise.bxor"),
  ("bsl", .called "Bitwise.bsl"),
  ("bsr", .called "Bitwise.bsr")]

def unaryTable : List (String × Operator) := [
  ("-", .prefixed "-"),
  ("+", .prefixed "+"),
  ("not", .prefixed "not "),
  ("bnot", .called "Bitwise.bnot")]

def binary? (name : String) : Option Operator :=
  binaryTable.lookup name

def unary? (name : String) : Option Operator :=
  unaryTable.lookup name

def isInfix (name : String) : Bool :=
  match binary? name with
  | some (.infixed _) => true
  | _ => false

def isPrefix (name : String) : Bool :=
  match unary? name with
  | some (.prefixed _) => true
  | _ => false

def asFunction (name : String) : String :=
  ":erlang.\"" ++ name ++ "\""

def applyBinary (name left right : String) : String :=
  match binary? name with
  | some (.infixed sign) => left ++ " " ++ sign ++ " " ++ right
  | some (.called function) => function ++ "(" ++ left ++ ", " ++ right ++ ")"
  | some (.prefixed _) | none => asFunction name ++ "(" ++ left ++ ", " ++ right ++ ")"

def applyUnary (name operand : String) : String :=
  match unary? name with
  | some (.prefixed sign) => sign ++ operand
  | some (.called function) => function ++ "(" ++ operand ++ ")"
  | some (.infixed _) | none => asFunction name ++ "(" ++ operand ++ ")"

def writeBinary (name : Option String) (left right : String) : String :=
  match name with
  | some name => applyBinary name left right
  | none => left ++ " " ++ Placeholder.operator.text ++ " " ++ right

def writeUnary (name : Option String) (operand : String) : String :=
  match name with
  | some name => applyUnary name operand
  | none => Placeholder.operator.text ++ " " ++ operand

end Operator

end Legible
