import TypedTables.Text.Quoted

/-!
# Refused conditions

Why a condition, or a list of them, is not understood.
-/

namespace TypedTables

open Text

inductive ConditionError where
  | unknownKey (key : String)
  | unknownComparator (symbol : String)
  | invalidLiteral (literal : String)
  | danglingOperator (operator : String)
  | malformed (condition : String)
  deriving DecidableEq

def ConditionError.message : ConditionError → String
  | unknownKey key => "condition references unknown column " ++ quote key
  | unknownComparator symbol => "unknown comparator " ++ quote symbol
  | invalidLiteral literal => "invalid literal " ++ quote literal
  | danglingOperator operator => "operator " ++ operator ++ " has no condition to join"
  | malformed condition => "malformed condition " ++ quote condition

end TypedTables
