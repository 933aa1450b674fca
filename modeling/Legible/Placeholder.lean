/-!
Texts that stand where a part of a construct is not what it should be.
-/

set_option autoImplicit false

namespace Legible

/-- The kinds of parts that can be missing. -/
inductive Placeholder where
  | name
  | parameterReturn
  | code
  | type
  | string
  | operator
  | clauses
  | functionName
  | module
  deriving DecidableEq, Repr

def Placeholder.text : Placeholder → String
  | .name => "unknown_name"
  | .parameterReturn => "unknown_parameter_return"
  | .code => "unknown_abstract_code"
  | .type => "unknown_type"
  | .string => "unknown_string"
  | .operator => "unknown_operator"
  | .clauses => "unknown_clauses"
  | .functionName => "unknown_function_name"
  | .module => "unknown_module"

end Legible
