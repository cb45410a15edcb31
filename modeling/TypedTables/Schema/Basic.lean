import TypedTables.ColumnType

/-!
# Schemas

The columns of a table, in order.
-/

namespace TypedTables

/-- What a column is to be. -/
structure ColumnDecl where
  name : String
  type : ColumnType
  /-- How many characters the text of a value may have. -/
  size : Nat
  /-- No value may be there twice. -/
  unique : Bool := false
  /-- No slot may be empty. -/
  required : Bool := false
  /-- A missing value is the value of the row before, plus one. -/
  autoincrement : Bool := false
  deriving DecidableEq

/-- The columns of a table, in order. -/
structure Schema where
  columns : List ColumnDecl
  deriving DecidableEq

namespace Schema

def size (s : Schema) : Nat := s.columns.length

def names (s : Schema) : List String := s.columns.map ColumnDecl.name

def position? (s : Schema) (name : String) : Option Nat :=
  s.columns.findIdx? fun d => d.name == name

end Schema

end TypedTables
