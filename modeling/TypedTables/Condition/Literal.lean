import TypedTables.Binary64.Reading
import TypedTables.Condition.Error

/-!
# Literals

The right side of a condition: a quoted text, a number or a truth value.
-/

namespace TypedTables

inductive Literal where
  | text (s : String)
  /-- A number and the text it was written as. -/
  | number (value : Binary64) (spelling : String)
  | boolean (b : Bool)
  deriving DecidableEq

namespace Literal

open Text

/-- Digits with an optional minus before them and an optional fraction after them. -/
def isNumeral (s : List Char) : Bool :=
  let unsigned :=
    match s with
    | '-' :: s => s
    | s => s
  isDigits (unsigned.takeWhile (· != '.')) &&
    match unsigned.dropWhile (· != '.') with
    | [] => true
    | _ :: fraction => isDigits fraction

def readQuoted? (q : Char) (s : List Char) : Option Literal :=
  match s.reverse with
  | [] => none
  | e :: inner => if e == q then some (text (String.ofList inner.reverse)) else none

def readBare? (s : List Char) : Option Literal :=
  if s == "true".toList then some (boolean true)
  else if s == "false".toList then some (boolean false)
  else if isNumeral s then
    (Binary64.read? s).map fun x => number x (String.ofList s)
  else none

/-- The literal that a text is, without blanks at its ends. -/
def read? : List Char → Option Literal
  | [] => none
  | c :: s => if c == '\'' || c == '"' then readQuoted? c s else readBare? (c :: s)

def read (s : List Char) : Except ConditionError Literal :=
  match read? s with
  | some literal => .ok literal
  | none => .error (.invalidLiteral (String.ofList s))

/-- The literal as a text: what is quoted, or what is written. -/
def toText : Literal → String
  | text s => s
  | number _ spelling => spelling
  | boolean b => toString b

end Literal

end TypedTables
