import TypedTables.ColumnType

/-!
# Formats

One thing for each column type whose values have a written form of their own. Texts have none: any
text is one.
-/

namespace TypedTables

structure Formats (α : Type) where
  number : α
  integer : α
  boolean : α
  time : α
  date : α
  deriving DecidableEq

namespace Formats

def get? {α : Type} (f : Formats α) : ColumnType → Option α
  | .text => none
  | .number => some f.number
  | .integer => some f.integer
  | .boolean => some f.boolean
  | .time => some f.time
  | .date => some f.date

def types : List ColumnType := [.number, .integer, .boolean, .time, .date]

def mapM {m : Type → Type} [Monad m] {α β : Type} (make : ColumnType → α → m β) (f : Formats α) :
    m (Formats β) := do
  let number ← make .number f.number
  let integer ← make .integer f.integer
  let boolean ← make .boolean f.boolean
  let time ← make .time f.time
  let date ← make .date f.date
  return { number, integer, boolean, time, date }

end Formats

end TypedTables
