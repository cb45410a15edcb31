import TypedTables.ColumnType
import TypedTables.Text.Quoted

/-!
# Refused rows

Why a row is not taken into a table.
-/

namespace TypedTables

open Text

inductive RowError where
  | unknownKey (key : String)
  | tooManyValues (expected got : Nat)
  | missingValue (column : String)
  | invalidKind (column : String)
  | tooLong (column : String) (limit length : Nat)
  | typeMismatch (column : String) (type : ColumnType) (value : String)
  | duplicateValue (column : String) (value : String)
  | overflow (column : String) (last : String)
  deriving DecidableEq

def RowError.message : RowError → String
  | unknownKey key => "unknown column " ++ quote key
  | tooManyValues expected got => s!"got {got} values for {expected} columns"
  | missingValue column => "column " ++ quote column ++ " requires a value"
  | invalidKind column =>
    "column " ++ quote column ++ " only accepts strings, numbers or booleans"
  | tooLong column limit length =>
    "value for column " ++ quote column ++ s!" is {length} characters, limit is {limit}"
  | typeMismatch column type value =>
    "value " ++ quote value ++ s!" is not a valid {type} for column " ++ quote column
  | duplicateValue column value =>
    "column " ++ quote column ++ " already holds the value " ++ quote value
  | overflow column last =>
    "autoincrement column " ++ quote column ++ " cannot go past " ++ last

end TypedTables
