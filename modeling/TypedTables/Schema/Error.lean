import TypedTables.ColumnType
import TypedTables.Text.Quoted

/-!
# Refused schemas

Why a list of column definitions does not make a table.
-/

namespace TypedTables

open Text

inductive SchemaError where
  | notAList
  | noColumns
  | invalidDefinition (index : Nat)
  | invalidName (index : Nat) (name : String)
  | reservedName (name : String)
  | duplicateName (name : String)
  | missingType (column : String)
  | unknownType (column : String) (type : String)
  | invalidSize (column : String)
  | sizeOutOfRange (column : String) (size min max : Nat)
  | invalidAttributes (column : String)
  | unknownAttribute (column : String) (label : String)
  | autoincrementNeedsNumber (column : String) (type : ColumnType)
  deriving DecidableEq

def SchemaError.message : SchemaError → String
  | notAList => "column definitions must be a list"
  | noColumns => "a table needs at least one column"
  | invalidDefinition index => s!"column definition #{index} must be an object"
  | invalidName index name => s!"column #{index} has an invalid name " ++ quote name
  | reservedName name => "column name " ++ quote name ++ " is reserved"
  | duplicateName name => "column name " ++ quote name ++ " is used more than once"
  | missingType column => "column " ++ quote column ++ " has no type"
  | unknownType column type => "column " ++ quote column ++ " has unknown type " ++ quote type
  | invalidSize column => "column " ++ quote column ++ " must have a non-negative integer size"
  | sizeOutOfRange column size min max =>
    "column " ++ quote column ++ s!" size {size} is outside [{min}, {max}]"
  | invalidAttributes column =>
    "column " ++ quote column ++ " attributes must be a list of names"
  | unknownAttribute column label =>
    "column " ++ quote column ++ " has unknown attribute " ++ quote label
  | autoincrementNeedsNumber column type =>
    "column " ++ quote column ++ s!" is autoincrement but has type {type}"

end TypedTables
