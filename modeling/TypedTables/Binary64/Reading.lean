import TypedTables.Binary64.Basic
import TypedTables.Text.Numeral

/-!
# Reading doubles

The texts that denote a double: an optional sign, then a decimal with at least one digit before or
after the point and an optional exponent, or a word for infinity or for no number.
-/

namespace TypedTables.Binary64

open Text

/-- Digits with an optional point and an optional exponent. -/
def readDecimal? (negative : Bool) (s : List Char) : Option Binary64 :=
  let (whole, rest) := splitDigits s
  let (fraction, rest) :=
    match rest with
    | '.' :: rest => splitDigits rest
    | rest => ([], rest)
  if whole.isEmpty && fraction.isEmpty then none
  else
    (readExponent? rest).map fun e =>
      ofDecimal negative (digitsValue (whole ++ fraction)) (e.getD 0 - fraction.length)

def read? (s : List Char) : Option Binary64 :=
  let (negative, body) := splitSign s
  let word := body.map Char.toLower
  if word == "inf".toList || word == "infinity".toList then some (infinity negative)
  else if word == "nan".toList then some (nan negative)
  else readDecimal? negative body

end TypedTables.Binary64
