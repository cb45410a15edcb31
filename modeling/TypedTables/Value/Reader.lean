import TypedTables.Binary64.Reading
import TypedTables.Value.Basic

/-!
# Reading values

The value of a given type that a text denotes.
-/

namespace TypedTables

open Text Calendar

def readInt64? (s : List Char) : Option Int64 :=
  (readSigned? s).bind fun n =>
    if Int64.minValue.toInt ≤ n ∧ n ≤ Int64.maxValue.toInt then some (Int64.ofInt n) else none

def readBool? (s : String) : Option Bool :=
  if s == "true" then some true else if s == "false" then some false else none

/-- The value of a type that a text denotes. Times and dates have to name one, and stay as they were
written. -/
def Value.read? (type : ColumnType) (s : String) : Option Value :=
  match type with
  | .text => some (.text s)
  | .number => (Binary64.read? s.toList).map .number
  | .integer => (readInt64? s.toList).map .integer
  | .boolean => (readBool? s).map .boolean
  | .time => (ClockTime.read? s).map fun _ => .time s
  | .date => (Date.read? s).map fun _ => .date s

end TypedTables
