import TypedTables.Text.Blank
import TypedTables.Text.Numeral

/-!
# Numeric fields

Times and dates are numbers with separators between them. Blanks may stand before a number, and
nowhere else inside.
-/

namespace TypedTables.Calendar

open Text

/-- A number of one to `width` digits, after any blanks, and what follows it. -/
def readNumber? (width : Nat) (s : List Char) : Option (Nat × List Char) :=
  let s := trimStart s
  let ds := (s.take width).takeWhile Char.isDigit
  if ds.isEmpty then none else some (digitsValue ds, s.drop ds.length)

def readSeparator? (separator : Char) : List Char → Option (List Char)
  | [] => none
  | c :: s => if c == separator then some s else none

end TypedTables.Calendar
