import TypedTables.Binary64.Shortest
import TypedTables.Json.Basic

/-!
# JSON text

The compact text of a JSON value: no blanks, escapes only where JSON demands them, and doubles with
the fewest digits that read back.
-/

namespace TypedTables

namespace Binary64

/-- A finite double as JSON writes it: positional and with a fraction while the first digit stands
between the fifth place after the point and the sixteenth before it, otherwise one digit before the
point and an exponent with its sign. -/
def toJsonText (x : Binary64) : List Char :=
  let body :=
    if x.magnitude = 0 then ['0', '.', '0']
    else
      let d := shortest .even x.magnitude
      let ds := Nat.toDigits 10 d.digits
      let first : Int := d.exponent + (ds.length - 1)
      if -5 ≤ first && first ≤ 15 then
        let text := d.positional
        if text.contains '.' then text else text ++ ['.', '0']
      else
        let mantissa :=
          match ds with
          | [d] => [d]
          | d :: rest => d :: '.' :: rest
          | [] => []
        let sign := if first < 0 then '-' else '+'
        mantissa ++ 'e' :: sign :: Nat.toDigits 10 first.natAbs
  if x.negative then '-' :: body else body

end Binary64

namespace Json

def escape (c : Char) : List Char :=
  match c with
  | '"' => ['\\', '"']
  | '\\' => ['\\', '\\']
  | '\x08' => ['\\', 'b']
  | '\t' => ['\\', 't']
  | '\n' => ['\\', 'n']
  | '\x0c' => ['\\', 'f']
  | '\r' => ['\\', 'r']
  | c =>
    if c.toNat < 0x20 then
      let ds := Nat.toDigits 16 c.toNat
      ['\\', 'u'] ++ List.replicate (4 - ds.length) '0' ++ ds
    else [c]

def quoteText (s : String) : List Char := '"' :: s.toList.flatMap escape ++ ['"']

def Number.toText : Number → List Char
  | whole n => (toString n).toList
  | real x => x.toJsonText

mutual

def toChars : Json → List Char
  | null => "null".toList
  | bool b => (toString b).toList
  | num n => n.toText
  | str s => quoteText s
  | arr items => '[' :: itemsToChars items
  | obj fields => '\x7b' :: fieldsToChars fields

def itemsToChars : List Json → List Char
  | [] => [']']
  | [v] => v.toChars ++ [']']
  | v :: w :: rest => v.toChars ++ ',' :: itemsToChars (w :: rest)

def fieldsToChars : List (String × Json) → List Char
  | [] => ['\x7d']
  | [(n, v)] => quoteText n ++ ':' :: v.toChars ++ ['\x7d']
  | (n, v) :: f :: rest => quoteText n ++ ':' :: v.toChars ++ ',' :: fieldsToChars (f :: rest)

end

instance : ToString Json := ⟨fun j => String.ofList j.toChars⟩

instance : ToString Number := ⟨fun n => String.ofList n.toText⟩

end Json

end TypedTables
