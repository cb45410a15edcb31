import TypedTables.Calendar.Field

/-!
# Dates

A date is written `year-month-day` or `year/month/day`: a year of up to four digits, or of any
number of them after a sign, and a month and a day of one or two. Only days of the proleptic
Gregorian calendar are dates, from the year -262143 to the year 262142.
-/

namespace TypedTables.Calendar

open Text

def isLeapYear (year : Int) : Bool :=
  year % 4 == 0 && (year % 100 != 0 || year % 400 == 0)

/-- The number of days of a month, which is none for a month that does not exist. -/
def daysIn (year : Int) (month : Nat) : Nat :=
  match month with
  | 1 | 3 | 5 | 7 | 8 | 10 | 12 => 31
  | 4 | 6 | 9 | 11 => 30
  | 2 => if isLeapYear year then 29 else 28
  | _ => 0

structure Date where
  year : Int
  month : Nat
  day : Nat
  year_mem : -262143 ≤ year ∧ year ≤ 262142
  day_mem : 1 ≤ day ∧ day ≤ daysIn year month
  deriving DecidableEq

namespace Date

protected def compare : Date → Date → Ordering :=
  compareLex (compareOn year) (compareLex (compareOn month) (compareOn day))

def ofNumbers? (year : Int) (month day : Nat) : Option Date :=
  if h : (-262143 ≤ year ∧ year ≤ 262142) ∧ (1 ≤ day ∧ day ≤ daysIn year month) then
    some ⟨year, month, day, h.1, h.2⟩
  else none

/-- Up to four digits, or a sign and any number of them, after any blanks. -/
def readYear? (s : List Char) : Option (Int × List Char) :=
  match trimStart s with
  | '-' :: s =>
    let ds := s.takeWhile Char.isDigit
    if ds.isEmpty then none else some (-(digitsValue ds : Int), s.drop ds.length)
  | '+' :: s =>
    let ds := s.takeWhile Char.isDigit
    if ds.isEmpty then none else some (digitsValue ds, s.drop ds.length)
  | s => (readNumber? 4 s).map fun (n, s) => (n, s)

def readWith? (separator : Char) (s : List Char) : Option Date := do
  let (year, s) ← readYear? s
  let s ← readSeparator? separator s
  let (month, s) ← readNumber? 2 s
  let s ← readSeparator? separator s
  let (day, s) ← readNumber? 2 s
  if s.isEmpty then ofNumbers? year month day else none

def read? (s : String) : Option Date :=
  let s := trim s.toList
  match readWith? '-' s with
  | some d => some d
  | none => readWith? '/' s

end Date

end TypedTables.Calendar
