import TypedTables.Pattern.OpenBrackets
import TypedTables.Pattern.Size
import TypedTables.Text.Numeral

/-!
# Reading patterns

The written form of patterns: a text is cut into pieces, one character at a time, and the pieces are
put together with a stack of the groups that are open. Texts that are no pattern have no reading.

Nor have patterns that need what is not read here: word boundaries (`\b`, `\B`), escapes for the start
and the end of a text (`\A`, `\z`), Unicode classes (`\p`, `\P`), escapes with hexadecimal digits (`\x`,
`\u`, `\U`), groups with names, and the flags `s`, `m`, `x`, `U`, `u` and `R`. Of the flags only `i` is
read.
-/

namespace TypedTables.WrittenPattern

open Text

/-! ## Pieces -/

inductive Piece where
  | one (b : Bracket)
  | start
  | finish
  | bar
  /-- The beginning of a group, which may say whether case counts in it. -/
  | groupOpen (kept : Bool) (anyCase : Option Bool)
  | groupClose
  /-- From here to the end of the group case does not count, or counts. -/
  | caseFlag (anyCase : Bool)
  | repeated (least : Nat) (most : Option Nat)
  /-- A question mark: an optional item, or a repetition that takes as little as it can. -/
  | question

/-- Where the scanner is. -/
inductive Scan where
  | outside
  | escape
  /-- After `(?`, with the letters so far, the last first. -/
  | flags (letters : List Char)
  /-- After an opening brace, with the characters so far, the last first. -/
  | counts (chars : List Char)
  | brackets (b : OpenBrackets)

/-- A number of at least one digit that 32 bits can hold, with blanks around it or not. -/
def count? (s : List Char) : Option Nat :=
  let s := trim s
  if isDigits s && digitsValue s < UInt32.size then some (digitsValue s) else none

/-- What stands between braces: `n`, `n,` or `n,m` with `n ≤ m`. -/
def counts? (s : List Char) : Option Piece :=
  let least := s.takeWhile (· != ',')
  match s.dropWhile (· != ',') with
  | [] => (count? least).map fun n => .repeated n (some n)
  | [_] => (count? least).map fun n => .repeated n none
  | _ :: most =>
    match count? least, count? most with
    | some n, some m => if n ≤ m then some (.repeated n (some m)) else none
    | _, _ => none

/-- What stands between `(?` and `:` or `)`: nothing, `i` or `-i`. -/
def flags? : List Char → Option (Option Bool)
  | [] => some none
  | ['i'] => some (some true)
  | ['-', 'i'] => some (some false)
  | _ => none

/-- Everything but a line end. -/
def dot : Bracket := .chars (CharSet.single '\n').complement

def pieces? : Scan → List Char → Option (List Piece)
  | .outside, [] => some []
  | _, [] => none
  | .outside, '(' :: '?' :: s => pieces? (.flags []) s
  | .outside, c :: s =>
    match c with
    | '\\' => pieces? .escape s
    | '(' => (pieces? .outside s).map (.groupOpen true none :: ·)
    | ')' => (pieces? .outside s).map (.groupClose :: ·)
    | '[' => pieces? (.brackets .new) s
    | '\x7b' => pieces? (.counts []) s
    | '|' => (pieces? .outside s).map (.bar :: ·)
    | '^' => (pieces? .outside s).map (.start :: ·)
    | '$' => (pieces? .outside s).map (.finish :: ·)
    | '.' => (pieces? .outside s).map (.one dot :: ·)
    | '*' => (pieces? .outside s).map (.repeated 0 none :: ·)
    | '+' => (pieces? .outside s).map (.repeated 1 none :: ·)
    | '?' => (pieces? .outside s).map (.question :: ·)
    | c => (pieces? .outside s).map (.one (.single c) :: ·)
  | .escape, c :: s =>
    match Member.ofEscape? c with
    | some m => (pieces? .outside s).map (.one m.toBracket :: ·)
    | none => none
  | .flags letters, c :: s =>
    match c with
    | ':' =>
      match flags? letters.reverse with
      | some f => (pieces? .outside s).map (.groupOpen false f :: ·)
      | none => none
    | ')' =>
      match flags? letters.reverse with
      | some (some f) => (pieces? .outside s).map (.caseFlag f :: ·)
      | _ => none
    | c => pieces? (.flags (c :: letters)) s
  | .counts chars, c :: s =>
    if c == '\x7d' then
      match counts? chars.reverse with
      | some p => (pieces? .outside s).map (p :: ·)
      | none => none
    else pieces? (.counts (c :: chars)) s
  | .brackets b, c :: s =>
    match b.read? c with
    | some (.inl b) => pieces? (.brackets b) s
    | some (.inr b) => (pieces? .outside s).map (.one b :: ·)
    | none => none

/-! ## Groups -/

/-- What a repetition mark can follow. -/
inductive Before where
  /-- Nothing that can be repeated. -/
  | none
  | item
  /-- A repetition, which a question mark makes take as little as it can. -/
  | repetition

/-- A group that is open: its finished branches and the items of the branch under way, both the last
first, and whether case counts. -/
structure Group where
  kept : Bool
  branches : List WrittenPattern
  items : List WrittenPattern
  anyCase : Bool
  before : Before

namespace Group

def start (kept anyCase : Bool) : Group := ⟨kept, [], [], anyCase, .none⟩

def add (g : Group) (a : WrittenPattern) : Group :=
  { g with items := a :: g.items, before := .item }

/-- The branch under way. -/
def branch (g : Group) : WrittenPattern := .ofSequence g.items.reverse

def split (g : Group) : Group :=
  { g with branches := g.branch :: g.branches, items := [], before := .none }

def content (g : Group) : WrittenPattern := .ofBranches g.branches.reverse g.branch

def setCase (g : Group) (anyCase : Bool) : Group :=
  { g with items := .nothing :: g.items, anyCase, before := .none }

def repeat? (g : Group) (least : Nat) (most : Option Nat) : Option Group :=
  match g.before, g.items with
  | .none, _ | _, [] => none
  | _, a :: items => some { g with items := .repeated a least most :: items, before := .repetition }

end Group

/-- Puts pieces together, onto the innermost open group and the groups around it. -/
def assemble? (g : Group) (outer : List Group) : List Piece → Option WrittenPattern
  | [] => if outer.isEmpty then some g.content else none
  | .one b :: ps => assemble? (g.add (.one (b.toSet g.anyCase) (b.depth false))) outer ps
  | .start :: ps => assemble? (g.add .start) outer ps
  | .finish :: ps => assemble? (g.add .finish) outer ps
  | .bar :: ps => assemble? g.split outer ps
  | .groupOpen kept anyCase :: ps =>
    assemble? (.start kept (anyCase.getD g.anyCase)) (g :: outer) ps
  | .groupClose :: ps =>
    match outer with
    | [] => none
    | h :: outer => assemble? (h.add (.group g.kept g.content)) outer ps
  | .caseFlag anyCase :: ps => assemble? (g.setCase anyCase) outer ps
  | .repeated least most :: ps =>
    match g.repeat? least most with
    | some g => assemble? g outer ps
    | none => none
  | .question :: ps =>
    match g.before with
    | .repetition => assemble? { g with before := .item } outer ps
    | _ =>
      match g.repeat? 0 (some 1) with
      | some g => assemble? g outer ps
      | none => none

def read? (s : String) : Option WrittenPattern :=
  (pieces? .outside s.toList).bind (assemble? (.start false false) [])

end TypedTables.WrittenPattern

namespace TypedTables

def Pattern.read? (s : String) : Option Pattern :=
  (WrittenPattern.read? s).bind fun a => if a.isAllowed then some a.simplified.pattern else none

end TypedTables
