import TypedTables.Text.Ascii

/-!
# Column types

The six kinds of values a column can hold, and the attributes a column can have.
-/

namespace TypedTables

open Text

inductive ColumnType where
  | text
  | number
  | integer
  | boolean
  | time
  | date
  deriving DecidableEq, Repr

namespace ColumnType

def name : ColumnType → String
  | text => "text"
  | number => "number"
  | integer => "integer"
  | boolean => "boolean"
  | time => "time"
  | date => "date"

def all : List ColumnType := [text, number, integer, boolean, time, date]

/-- The type with this name, in any case. -/
def ofName? (s : String) : Option ColumnType := all.find? (sameIgnoringCase ·.name s)

@[simp] theorem ofName?_name (t : ColumnType) : ofName? t.name = some t := by
  cases t <;> decide +kernel

def isNumeric : ColumnType → Bool
  | number | integer => true
  | text | boolean | time | date => false

instance : ToString ColumnType := ⟨name⟩

end ColumnType

/-- What a column does beyond holding values. -/
inductive Attribute where
  /-- A missing value is the value of the row before, plus one. -/
  | autoincrement
  deriving DecidableEq, Repr

namespace Attribute

def name : Attribute → String
  | autoincrement => "autoincrement"

def all : List Attribute := [autoincrement]

def ofName? (s : String) : Option Attribute := all.find? (sameIgnoringCase ·.name s)

@[simp] theorem ofName?_name (a : Attribute) : ofName? a.name = some a := by
  cases a
  decide +kernel

end Attribute

end TypedTables
