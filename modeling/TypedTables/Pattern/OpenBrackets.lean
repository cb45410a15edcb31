import TypedTables.Pattern.Bracket

/-!
# Open brackets

Reading of what stands between brackets, one character at a time (`OpenBrackets.read?`). Brackets may
hold others, and two characters in a row, such as `--`, may be an operator on sets.
-/

namespace TypedTables

/-- Brackets that are not closed yet. -/
structure OpenBracket where
  inverted : Bool
  /-- What stands before the last operator, and that operator. -/
  left : Option (Bracket × SetOperator)
  /-- The members since, the last first. -/
  members : List Bracket
  /-- All characters since the opening bracket, the last first. -/
  written : List Char

namespace OpenBracket

def new : OpenBracket := ⟨false, none, [], []⟩

def add (b : OpenBracket) (a : Bracket) : OpenBracket := { b with members := a :: b.members }

/-- All that has been read. Operators take their operands from the left. -/
def content (b : OpenBracket) : Bracket :=
  let right := Bracket.ofMembers b.members.reverse
  match b.left with
  | none => right
  | some (left, o) => .operation o left right

def operate (b : OpenBracket) (o : SetOperator) : OpenBracket :=
  { b with left := some (b.content, o), members := [] }

end OpenBracket

/-- What has just been read between brackets. -/
inductive BracketSpot where
  | opening
  /-- The opening bracket and `^`, and perhaps dashes, which are members here. -/
  | head (dashes : Bool)
  /-- Something that is complete. -/
  | complete
  | backslash
  /-- A character of which two are an operator. -/
  | half (c : Char)
  | member (m : Member)
  /-- A member and a dash. -/
  | dash (m : Member)
  /-- A member, a dash and a backslash. -/
  | dashBackslash (m : Member)

/-- The innermost brackets that are open, those around them, and what has just been read. -/
structure OpenBrackets where
  inner : OpenBracket
  outer : List OpenBracket
  spot : BracketSpot

namespace OpenBrackets

def new : OpenBrackets := ⟨.new, [], .opening⟩

/-- The open brackets after a character, or what they stand for when it closed the outermost. -/
abbrev Next := OpenBrackets ⊕ Bracket

def addMember (b : OpenBrackets) (a : Bracket) : OpenBrackets :=
  { b with inner := b.inner.add a, spot := .complete }

def operate (b : OpenBrackets) (o : SetOperator) : OpenBrackets :=
  { b with inner := b.inner.operate o, spot := .complete }

def close (b : OpenBrackets) : Next :=
  let closed := Bracket.between b.inner.inverted b.inner.content
  match b.outer with
  | [] => .inr closed
  | around :: outer =>
    .inl ⟨around.add ((namedBracket? b.inner.written.reverse).getD closed), outer, .complete⟩

/-- Reads a character where a member, an operator or the end may stand. -/
def readMember (b : OpenBrackets) (c : Char) : Next :=
  match c with
  | '[' => .inl ⟨.new, b.inner :: b.outer, .opening⟩
  | ']' => b.close
  | '\\' => .inl { b with spot := .backslash }
  | '&' | '-' | '~' => .inl { b with spot := .half c }
  | c => .inl { b with spot := .member (.inl c) }

def readAfter (b : OpenBrackets) (m : Member) (c : Char) : Next :=
  if c = '-' then .inl { b with spot := .dash m } else (b.addMember m.toBracket).readMember c

/-- Reads a character where brackets begin: dashes are members here, and so is a closing bracket
that comes first. -/
def readHead (b : OpenBrackets) (dashes : Bool) (c : Char) : Next :=
  if c = '-' then .inl { b.addMember (.single c) with spot := .head true }
  else if c = ']' && !dashes then .inl (b.addMember (.single c))
  else b.readMember c

def operator (c : Char) : SetOperator :=
  match c with
  | '&' => .intersection
  | '-' => .difference
  | _ => .symmetricDifference

/-- Reads one character; `none` if no brackets can go on so. -/
def read? (b : OpenBrackets) (c : Char) : Option Next :=
  let b := { b with inner := { b.inner with written := c :: b.inner.written } }
  match b.spot with
  | .opening =>
    if c = '^' then
      some (.inl { b with inner := { b.inner with inverted := true }, spot := .head false })
    else some (b.readHead false c)
  | .head dashes => some (b.readHead dashes c)
  | .complete => some (b.readMember c)
  | .backslash => (Member.ofEscape? c).map fun m => .inl { b with spot := .member m }
  | .half d => some (if c = d then .inl (b.operate (operator d)) else b.readAfter (.inl d) c)
  | .member m => some (b.readAfter m c)
  | .dash m =>
    match c with
    | ']' => some ((b.addMember m.toBracket).addMember (.single '-')).close
    | '-' => some (.inl ((b.addMember m.toBracket).operate .difference))
    | '\\' => some (.inl { b with spot := .dashBackslash m })
    | c => (m.range? (.inl c)).map fun a => .inl (b.addMember a)
  | .dashBackslash m =>
    ((Member.ofEscape? c).bind m.range?).map fun a => .inl (b.addMember a)

end OpenBrackets

end TypedTables
