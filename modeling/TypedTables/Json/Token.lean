import TypedTables.Json.Number

/-!
# JSON tokens

The pieces of a JSON text: punctuation, words, numbers and quoted texts. Two pieces can be written
that no JSON value holds: a text with half of a surrogate pair, and a number too big for a double.
They are pieces all the same, with nothing in them.
-/

namespace TypedTables.Json

inductive Token where
  | listOpen
  | listClose
  | fieldsOpen
  | fieldsClose
  | colon
  | comma
  | null
  | bool (b : Bool)
  | number (n : Option Number)
  | text (s : Option String)

/-- The characters that code units stand for: a pair of surrogates is one character, and a half
without its other half is none. -/
def ofCodeUnits? : List Nat → Option (List Char)
  | [] => some []
  | [u] => if 0xD800 ≤ u && u ≤ 0xDFFF then none else some [Char.ofNat u]
  | u :: v :: rest =>
    if 0xD800 ≤ u && u ≤ 0xDBFF then
      if 0xDC00 ≤ v && v ≤ 0xDFFF then
        (ofCodeUnits? rest).map
          (Char.ofNat (0x10000 + (u - 0xD800) * 0x400 + (v - 0xDC00)) :: ·)
      else none
    else if 0xDC00 ≤ u && u ≤ 0xDFFF then none
    else (ofCodeUnits? (v :: rest)).map (Char.ofNat u :: ·)

def hexValue? (c : Char) : Option Nat :=
  if c.isDigit then some (c.toNat - '0'.toNat)
  else if 'a' ≤ c && c ≤ 'f' then some (c.toNat - 'a'.toNat + 10)
  else if 'A' ≤ c && c ≤ 'F' then some (c.toNat - 'A'.toNat + 10)
  else none

def escaped? : Char → Option Char
  | '"' => some '"'
  | '\\' => some '\\'
  | '/' => some '/'
  | 'b' => some '\x08'
  | 'f' => some '\x0c'
  | 'n' => some '\n'
  | 'r' => some '\r'
  | 't' => some '\t'
  | _ => none

/-- Reads a text up to its closing quote, as code units, onto those already read, the last first. -/
def scanText (units : List Nat) : List Char → Option (List Nat × List Char)
  | [] => none
  | '"' :: s => some (units.reverse, s)
  | '\\' :: 'u' :: a :: b :: c :: d :: s =>
    match hexValue? a, hexValue? b, hexValue? c, hexValue? d with
    | some a, some b, some c, some d =>
      scanText ((((a * 16 + b) * 16 + c) * 16 + d) :: units) s
    | _, _, _, _ => none
  | '\\' :: e :: s =>
    match escaped? e with
    | some c => scanText (c.toNat :: units) s
    | none => none
  | c :: s => if c.toNat < 0x20 || c == '\\' then none else scanText (c.toNat :: units) s

theorem length_scanText {units us : List Nat} {s rest : List Char}
    (h : scanText units s = some (us, rest)) : rest.length < s.length := by
  fun_induction scanText units s <;> simp_all <;> omega

def isNumberChar (c : Char) : Bool :=
  c.isDigit || c == '-' || c == '+' || c == '.' || c == 'e' || c == 'E'

def lexeme? : (s : List Char) → Option (Token × { rest : List Char // rest.length < s.length })
  | '[' :: s => some (.listOpen, ⟨s, by simp⟩)
  | ']' :: s => some (.listClose, ⟨s, by simp⟩)
  | '\x7b' :: s => some (.fieldsOpen, ⟨s, by simp⟩)
  | '\x7d' :: s => some (.fieldsClose, ⟨s, by simp⟩)
  | ':' :: s => some (.colon, ⟨s, by simp⟩)
  | ',' :: s => some (.comma, ⟨s, by simp⟩)
  | 'n' :: 'u' :: 'l' :: 'l' :: s => some (.null, ⟨s, by simp only [List.length_cons]; omega⟩)
  | 't' :: 'r' :: 'u' :: 'e' :: s => some (.bool true, ⟨s, by simp only [List.length_cons]; omega⟩)
  | 'f' :: 'a' :: 'l' :: 's' :: 'e' :: s =>
    some (.bool false, ⟨s, by simp only [List.length_cons]; omega⟩)
  | '"' :: s =>
    match h : scanText [] s with
    | some (units, rest) =>
      some (.text ((ofCodeUnits? units).map String.ofList),
        ⟨rest, Nat.lt_succ_of_lt (length_scanText h)⟩)
    | none => none
  | c :: s =>
    if isNumberChar c then
      (Number.readSpelling? (c :: s.takeWhile isNumberChar)).map fun spelling =>
        (.number (Number.ofSpelling? spelling),
          ⟨s.dropWhile isNumberChar,
            Nat.lt_succ_of_le (List.dropWhile_suffix isNumberChar).length_le⟩)
    else none
  | [] => none

/-- Space, tab and line ends, the only blanks between tokens. -/
def isSpace (c : Char) : Bool := c == ' ' || c == '\t' || c == '\n' || c == '\r'

def tokens? (s : List Char) : Option (List Token) :=
  match s with
  | [] => some []
  | c :: rest =>
    if isSpace c then tokens? rest
    else
      match lexeme? (c :: rest) with
      | some (t, ⟨rest, _⟩) => (tokens? rest).map (t :: ·)
      | none => none
termination_by s.length
decreasing_by all_goals simp only [List.length_cons] at *; omega

end TypedTables.Json
