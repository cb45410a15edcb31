/-!
# Comparators

The nine ways in which a condition compares a value with a literal.
-/

namespace TypedTables

inductive Comparator where
  | startsWith
  | equal
  | contains
  | endsWith
  | notEqual
  | greater
  | less
  | greaterOrEqual
  | lessOrEqual
  deriving DecidableEq, Repr

namespace Comparator

def symbol : Comparator → String
  | startsWith => "^="
  | equal => "=="
  | contains => "~="
  | endsWith => "$="
  | notEqual => "!="
  | greater => ">"
  | less => "<"
  | greaterOrEqual => ">="
  | lessOrEqual => "<="

def all : List Comparator :=
  [startsWith, equal, contains, endsWith, notEqual, greater, less, greaterOrEqual, lessOrEqual]

def ofSymbol? (s : String) : Option Comparator := all.find? (·.symbol == s)

@[simp] theorem ofSymbol?_symbol (c : Comparator) : ofSymbol? c.symbol = some c := by
  cases c <;> decide +kernel

theorem symbol_of_ofSymbol? {s : String} {c : Comparator} (h : ofSymbol? s = some c) :
    c.symbol = s := by
  simpa using List.find?_some h

def isSymbolChar (c : Char) : Bool := "=<>!^~$".toList.contains c

end Comparator

end TypedTables
