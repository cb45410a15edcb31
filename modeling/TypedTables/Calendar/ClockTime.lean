import TypedTables.Calendar.Field

/-!
# Times of day

A time is written `hour:minute:second` or `hour:minute`, each with one or two digits. The second may
be 60, a leap second, which comes after second 59 and before the next minute.
-/

namespace TypedTables.Calendar

open Text

structure ClockTime where
  hour : Fin 24
  minute : Fin 60
  second : Fin 61
  deriving DecidableEq

namespace ClockTime

protected def compare : ClockTime → ClockTime → Ordering :=
  compareLex (compareOn hour) (compareLex (compareOn minute) (compareOn second))

def ofNumbers? (hour minute second : Nat) : Option ClockTime :=
  if h : hour < 24 ∧ minute < 60 ∧ second < 61 then
    some ⟨⟨hour, h.1⟩, ⟨minute, h.2.1⟩, ⟨second, h.2.2⟩⟩
  else none

/-- Reads `hour:minute:second` and nothing else. -/
def readWithSeconds? (s : List Char) : Option ClockTime := do
  let (hour, s) ← readNumber? 2 s
  let s ← readSeparator? ':' s
  let (minute, s) ← readNumber? 2 s
  let s ← readSeparator? ':' s
  let (second, s) ← readNumber? 2 s
  if s.isEmpty then ofNumbers? hour minute second else none

/-- Reads `hour:minute` and nothing else. -/
def readWithoutSeconds? (s : List Char) : Option ClockTime := do
  let (hour, s) ← readNumber? 2 s
  let s ← readSeparator? ':' s
  let (minute, s) ← readNumber? 2 s
  if s.isEmpty then ofNumbers? hour minute 0 else none

/-- The time that a text names, blanks at its ends aside. -/
def read? (s : String) : Option ClockTime :=
  let s := trim s.toList
  match readWithSeconds? s with
  | some t => some t
  | none => readWithoutSeconds? s

end ClockTime

end TypedTables.Calendar
