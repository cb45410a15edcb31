import TypedTables.Condition.Comparator
import TypedTables.Condition.Literal
import TypedTables.Text.Ascii
import TypedTables.Text.Blank

/-!
# Written conditions

A condition is written as a name, a comparator and a literal, with blanks before, between and after
them or not.
-/

namespace TypedTables

open Text

structure WrittenCondition where
  key : String
  comparator : Comparator
  literal : Literal
  deriving DecidableEq

namespace WrittenCondition

/-- Reads the comparator and the literal after a name; `malformed` is the complaint that there is no
comparator. -/
def readRest (malformed : ConditionError) (key : String) (s : List Char) :
    Except ConditionError WrittenCondition :=
  let s := trimStart s
  let symbol := s.takeWhile Comparator.isSymbolChar
  if symbol.isEmpty then .error malformed
  else
    match Comparator.ofSymbol? (String.ofList symbol) with
    | none => .error (.unknownComparator (String.ofList symbol))
    | some comparator => do
      let literal ← Literal.read (trim (s.dropWhile Comparator.isSymbolChar))
      return { key, comparator, literal }

def read (text : String) : Except ConditionError WrittenCondition :=
  let s := trimStart text.toList
  if (s.head?.any isNameStart) then
    readRest (.malformed text) (String.ofList (s.takeWhile isNameChar)) (s.dropWhile isNameChar)
  else .error (.malformed text)

end WrittenCondition

end TypedTables
