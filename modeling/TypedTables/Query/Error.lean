import TypedTables.Condition.Error

/-!
# Refused queries

Why a query is not answered.
-/

namespace TypedTables

open Text

/-- The parts of a query whose shape can be wrong. -/
inductive QueryArgument where
  | query
  | fields
  | keys
  | order
  | clause
  | method
  deriving DecidableEq

inductive QueryError where
  | invalidShape (argument : QueryArgument)
  | unknownKey (key : String)
  | duplicateKey (key : String)
  | invalidOrder (entry : String)
  | invalidLimit (limit : String)
  | unknownMethod (method : String)
  | countWithOrder
  | condition (e : ConditionError)
  deriving DecidableEq

def QueryArgument.demand : QueryArgument → String
  | query => "query must be an object"
  | fields => "query must be an object with keys, order, where, limit or method"
  | keys => "keys must be a list of column names"
  | order => "order must be a string or a list of strings"
  | clause => "where must be a string or a list of strings"
  | method => "method must be a string"

def QueryError.message : QueryError → String
  | invalidShape argument => argument.demand
  | unknownKey key => "unknown column " ++ quote key
  | duplicateKey key => "column " ++ quote key ++ " is projected more than once"
  | invalidOrder entry =>
    "invalid order entry " ++ quote entry ++ ", expected name[:ASC|:DESC]"
  | invalidLimit limit => "limit must be a non-negative integer, got " ++ limit
  | unknownMethod method => "unknown method " ++ quote method
  | countWithOrder => "count cannot be combined with order"
  | condition e => e.message

end TypedTables
