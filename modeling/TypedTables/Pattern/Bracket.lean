import TypedTables.Text.Blank
import TypedTables.Text.CaseFold
import TypedTables.Text.DecimalDigit
import TypedTables.Text.Word

/-!
# Brackets

The sets of characters that a pattern asks for in one place, above all those between brackets. Which
characters a written set stands for is known once it is said whether case counts (`Bracket.toSet`).
-/

namespace TypedTables

open Text

/-! ## Written sets -/

inductive SetOperator where
  | intersection
  | difference
  | symmetricDifference
  deriving DecidableEq, Repr

def SetOperator.apply : SetOperator → CharSet → CharSet → CharSet
  | intersection => .inter
  | difference => .diff
  | symmetricDifference => .symmDiff

/-- A set as it is written. -/
inductive Bracket where
  | nothing
  | chars (s : CharSet)
  /-- A set that has a name, or its complement. -/
  | named (inverted : Bool) (s : CharSet)
  | union (a b : Bracket)
  | operation (o : SetOperator) (a b : Bracket)
  /-- What stands between brackets, or everything else. -/
  | between (inverted : Bool) (a : Bracket)
  deriving DecidableEq, Repr

namespace Bracket

def single (c : Char) : Bracket := chars (.single c)

/-- The characters of a written set. When case does not count, each character brings all its cases
along before anything is inverted or operated on. -/
def toSet (anyCase : Bool) : Bracket → CharSet
  | nothing => .empty
  | chars s => fold s
  | named inverted s => invert inverted (fold s)
  | union a b => (a.toSet anyCase).union (b.toSet anyCase)
  | operation o a b => o.apply (a.toSet anyCase) (b.toSet anyCase)
  | between inverted a => invert inverted (a.toSet anyCase)
where
  fold (s : CharSet) : CharSet := if anyCase then s.withCases else s
  invert (inverted : Bool) (s : CharSet) : CharSet := if inverted then s.complement else s

/-- How deeply a written set nests. Brackets, operators and runs of several members count, and a run
once only. -/
def depth (inRun : Bool) : Bracket → Nat
  | nothing | chars _ | named _ _ => 0
  | union a b => max (a.depth true) (b.depth true) + (if inRun then 0 else 1)
  | operation _ a b => max (a.depth false) (b.depth false) + 1
  | between _ a => a.depth false + 1

def ofMembers : List Bracket → Bracket
  | [] => nothing
  | [a] => a
  | a :: b :: rest => union a (ofMembers (b :: rest))

end Bracket

/-! ## Members -/

/-- What brackets hold: a character, which may begin or end a range, or a set. -/
abbrev Member := Char ⊕ CharSet

def Member.toBracket : Member → Bracket
  | .inl c => .single c
  | .inr s => .chars s

def Member.range? : Member → Member → Option Bracket
  | .inl a, .inl b => if a ≤ b then some (.chars (.range a b)) else none
  | _, _ => none

/-- What an escaped character stands for: itself if it is a mark, else what its letter says. -/
def Member.ofEscape? (c : Char) : Option Member :=
  match c with
  | 'd' => some (.inr decimalDigits)
  | 'D' => some (.inr decimalDigits.complement)
  | 'w' => some (.inr wordCharacters)
  | 'W' => some (.inr wordCharacters.complement)
  | 's' => some (.inr blanks)
  | 'S' => some (.inr blanks.complement)
  | 'n' => some (.inl '\n')
  | 't' => some (.inl '\t')
  | 'r' => some (.inl '\r')
  | 'f' => some (.inl '\x0c')
  | 'v' => some (.inl '\x0b')
  | 'a' => some (.inl '\x07')
  | c => if c.toNat < 0x80 && !c.isAlphanum && c != '<' && c != '>' then some (.inl c) else none

def namedSets : List (String × CharSet) :=
  let digits := ('0', '9')
  let capitals := ('A', 'Z')
  let letters := [capitals, ('a', 'z')]
  let set (ranges : List (Char × Char)) : CharSet :=
    ⟨ranges.map fun (a, b) => (a.toNat, b.toNat)⟩
  [("alnum", set (digits :: letters)), ("alpha", set letters), ("ascii", set [('\x00', '\x7f')]),
    ("blank", set [('\t', '\t'), (' ', ' ')]),
    ("cntrl", set [('\x00', '\x1f'), ('\x7f', '\x7f')]), ("digit", set [digits]),
    ("graph", set [('!', '~')]), ("lower", set [('a', 'z')]), ("print", set [(' ', '~')]),
    ("punct", set [('!', '/'), (':', '@'), ('[', '`'), ('\x7b', '~')]),
    ("space", set [('\t', '\r'), (' ', ' ')]), ("upper", set [capitals]),
    ("word", set [digits, capitals, ('_', '_'), ('a', 'z')]),
    ("xdigit", set [digits, ('A', 'F'), ('a', 'f')])]

/-- The set that is named by what follows an opening bracket inside brackets: a name between colons
and a closing bracket, with `^` before the name if all else is meant. -/
def namedBracket? (written : List Char) : Option Bracket :=
  match written with
  | ':' :: '^' :: rest => find true rest
  | ':' :: rest => find false rest
  | _ => none
where
  find (inverted : Bool) (rest : List Char) : Option Bracket :=
    (namedSets.find? fun (name, _) => rest == name.toList ++ [':', ']']).map fun (_, s) =>
      .named inverted s

end TypedTables
