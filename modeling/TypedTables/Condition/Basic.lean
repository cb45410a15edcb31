import TypedTables.Condition.Written
import TypedTables.Schema.Basic
import TypedTables.Text.Occurrence
import TypedTables.Value.Reader

/-!
# Conditions

A condition on one column, and what it says about a row. Comparisons take place among values of the
kind of the stored one; a literal that denotes no such value is only different from it. Nothing is
said of an empty slot.
-/

namespace TypedTables

open Text Calendar

structure Condition where
  key : String
  column : Nat
  comparator : Comparator
  literal : Literal
  deriving DecidableEq

namespace Literal

/-- The number that a literal denotes, as a number or as a text. -/
def toNumber? : Literal → Option Binary64
  | number x _ => some x
  | text s => Binary64.read? (trim s.toList)
  | boolean _ => none

def toBoolean? : Literal → Option Bool
  | boolean b => some b
  | text s => readBool? s
  | number _ _ => none

/-- How a value compares with a literal, if the literal denotes a value of its kind. -/
def compareWith? (l : Literal) : Value → Option Ordering
  | .null => none
  | .integer i => l.toNumber?.bind (Binary64.ofInt i.toInt).compare?
  | .number x => l.toNumber?.bind x.compare?
  | .boolean b => l.toBoolean?.map fun c => compare b.toNat c.toNat
  | .time s =>
    match ClockTime.read? s, ClockTime.read? l.toText with
    | some t, some u => some (t.compare u)
    | _, _ => none
  | .date s =>
    match Date.read? s, Date.read? l.toText with
    | some d, some e => some (d.compare e)
    | _, _ => none
  | .text s => some (compare s l.toText)

end Literal

namespace Comparator

def holds (c : Comparator) (v : Value) (l : Literal) : Bool :=
  match c with
  | startsWith => l.toText.toList.isPrefixOf v.display.toList
  | contains => occursIn l.toText.toList v.display.toList
  | endsWith => l.toText.toList.isSuffixOf v.display.toList
  | equal => l.compareWith? v == some .eq
  | notEqual => l.compareWith? v != some .eq
  | greater => l.compareWith? v == some .gt
  | less => l.compareWith? v == some .lt
  | greaterOrEqual => l.compareWith? v == some .gt || l.compareWith? v == some .eq
  | lessOrEqual => l.compareWith? v == some .lt || l.compareWith? v == some .eq

end Comparator

namespace Condition

def holds (c : Condition) (row : Row) : Bool :=
  match row[c.column]? with
  | none => false
  | some v => !v.isNull && c.comparator.holds v c.literal

def read (s : Schema) (text : String) : Except ConditionError Condition := do
  let parts ← WrittenCondition.read text
  match s.position? parts.key with
  | some column =>
    return { key := parts.key, column, comparator := parts.comparator, literal := parts.literal }
  | none => throw (.unknownKey parts.key)

def readAndHolds (s : Schema) (row : Row) (text : String) : Except ConditionError Bool := do
  let c ← read s text
  return c.holds row

end Condition

end TypedTables
