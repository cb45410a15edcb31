import TypedTables.Binary64.Shortest
import TypedTables.Calendar.ClockTime
import TypedTables.Calendar.Date
import TypedTables.ColumnType

/-!
# Values

What a slot of a table holds: nothing, or a value of one of the six types. Times and dates keep the
text they were given and are read again where they are compared.
-/

namespace TypedTables

open Calendar

inductive Value where
  | null
  | text (s : String)
  | number (x : Binary64)
  | integer (i : Int64)
  | boolean (b : Bool)
  | time (s : String)
  | date (s : String)
  deriving DecidableEq

namespace Value

instance : Inhabited Value := ⟨null⟩

def isNull : Value → Bool
  | null => true
  | _ => false

def integer? : Value → Option Int64
  | integer i => some i
  | _ => none

def number? : Value → Option Binary64
  | number x => some x
  | _ => none

def text? : Value → Option String
  | text s | time s | date s => some s
  | _ => none

def boolean? : Value → Option Bool
  | boolean b => some b
  | _ => none

/-- The double that a number or an integer compares as. -/
def asBinary64? : Value → Option Binary64
  | number x => some x
  | integer i => some (Binary64.ofInt i.toInt)
  | _ => none

def columnType? : Value → Option ColumnType
  | null => none
  | text _ => some .text
  | number _ => some .number
  | integer _ => some .integer
  | boolean _ => some .boolean
  | time _ => some .time
  | date _ => some .date

/-- The text that shows a value; an empty slot shows nothing. -/
def display : Value → String
  | null => ""
  | text s | time s | date s => s
  | number x => toString x
  | integer i => toString i.toInt
  | boolean b => toString b

instance : ToString Value := ⟨display⟩

/-- Values of one type with the same content. Numbers are compared as numbers, so that both zeros
are the same and a value that is not a number differs from itself. -/
def same : Value → Value → Bool
  | number x, number y => x.sameNumber y
  | v, w => v == w

/-! ## Natural order -/

/-- Texts in the order of what they are read as, or in the order of texts if one of them cannot be
read. -/
def compareRead {α : Type} (read? : String → Option α) (cmp : α → α → Ordering) (a b : String) :
    Ordering :=
  match read? a, read? b with
  | some x, some y => cmp x y
  | _, _ => compare a b

def compareTimes : String → String → Ordering := compareRead ClockTime.read? ClockTime.compare

def compareDates : String → String → Ordering := compareRead Date.read? Date.compare

/-- The place of a type among the types that never share a column. -/
def rank : Value → Nat
  | null => 0
  | boolean _ => 1
  | integer _ | number _ => 2
  | time _ => 3
  | date _ => 4
  | text _ => 5

/-- The order in which rows are sorted: an empty slot before everything, texts by characters,
numbers by size, `false` before `true`, times and dates as time goes by. -/
protected def compare : Value → Value → Ordering
  | null, null => .eq
  | null, _ => .lt
  | _, null => .gt
  | text a, text b => compare a b
  | integer a, integer b => compare a.toInt b.toInt
  | number a, number b => a.totalCompare b
  | integer a, number b => (Binary64.ofInt a.toInt).totalCompare b
  | number a, integer b => a.totalCompare (Binary64.ofInt b.toInt)
  | boolean a, boolean b => compare a.toNat b.toNat
  | time a, time b => compareTimes a b
  | date a, date b => compareDates a b
  | v, w => compare v.rank w.rank

end Value

abbrev Row := List Value

end TypedTables
