/-!
# Numerals

What the written forms of numbers share: signs, runs of decimal digits and exponents. Only the ten
ASCII digits count.
-/

namespace TypedTables.Text

def digitsValue (ds : List Char) : Nat :=
  ds.foldl (fun n d => 10 * n + (d.toNat - '0'.toNat)) 0

/-- An optional sign and what follows it; `true` for a minus. -/
def splitSign : List Char → Bool × List Char
  | '-' :: s => (true, s)
  | '+' :: s => (false, s)
  | s => (false, s)

def splitDigits (s : List Char) : List Char × List Char :=
  (s.takeWhile Char.isDigit, s.dropWhile Char.isDigit)

theorem splitDigits_append (s : List Char) : (splitDigits s).1 ++ (splitDigits s).2 = s :=
  List.takeWhile_append_dropWhile

def isDigits (s : List Char) : Bool := !s.isEmpty && s.all Char.isDigit

def readSigned? (s : List Char) : Option Int :=
  let (negative, ds) := splitSign s
  if isDigits ds then
    some (if negative then -(digitsValue ds : Int) else digitsValue ds)
  else none

/-- An exponent after `e` or `E`, or nothing at all. -/
def readExponent? : List Char → Option (Option Int)
  | [] => some none
  | e :: s => if e == 'e' || e == 'E' then (readSigned? s).map some else none

end TypedTables.Text
