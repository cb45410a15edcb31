import TypedTables.Text.CharSet

/-!
# Patterns

Regular expressions over characters, with anchors for the two ends of the text. All matches of a
pattern that are under way in a text are followed together: what has to be known of them is at which
places inside the pattern one of them has just read a character (`Progress`). What is not being
matched is not looked at, so that counts may be large.
-/

namespace TypedTables

inductive Pattern where
  | empty
  | one (s : CharSet)
  | start
  | finish
  | seq (p q : Pattern)
  | alt (p q : Pattern)
  | copies (p : Pattern) (least most : Nat)
  | plus (p : Pattern)
  deriving DecidableEq, Repr

namespace Pattern

/-! ## Matches under way -/

/-- The places inside a pattern at which a match has just read a character. -/
inductive Progress where
  | none
  | read
  /-- The places in each of two parts. -/
  | parts (l r : Progress)
  deriving DecidableEq, Repr

namespace Progress

def isNone : Progress → Bool
  | none => true
  | _ => false

def isRead : Progress → Bool
  | read => true
  | _ => false

def left : Progress → Progress
  | parts l _ => l
  | _ => none

def right : Progress → Progress
  | parts _ r => r
  | _ => none

/-- The places in each of two parts, as nothing if there are none. -/
def join : Progress → Progress → Progress
  | none, none => none
  | l, r => parts l r

end Progress

/-- A place in a text, before, between or after its characters. -/
structure Place where
  first : Bool
  last : Bool

/-- A match can be through with some copies, from `least` to `most`, of a pattern of which `leaves`
says the same. The places in the first copy come before those in the others. A match that may be
through need not go through another copy without reading. -/
def leavesCopies (leaves : Bool → Progress → Bool) :
    (most least : Nat) → (entered : Bool) → Progress → Bool
  | 0, _, entered, _ => entered
  | most + 1, 0, entered, m =>
    entered || (!m.isNone && leavesCopies leaves most 0 (leaves false m.left) m.right)
  | most + 1, least + 1, entered, m =>
    (entered || !m.isNone) && leavesCopies leaves most least (leaves entered m.left) m.right

/-- A match can be through with the pattern here: one that comes to the pattern here, if it is
`entered`, or one that is under way in it. -/
def leaves (here : Place) : Pattern → (entered : Bool) → Progress → Bool
  | empty, entered, _ => entered
  | one _, _, m => m.isRead
  | start, entered, _ => entered && here.first
  | finish, entered, _ => entered && here.last
  | seq p q, entered, m =>
    (entered || !m.isNone) && q.leaves here (p.leaves here entered m.left) m.right
  | alt p q, entered, m =>
    (entered || !m.isNone) && (p.leaves here entered m.left || q.leaves here entered m.right)
  | copies p least most, entered, m => leavesCopies (p.leaves here) most least entered m
  | plus p, entered, m => p.leaves here entered m

/-- The steps of the matches in some copies of a pattern of which `leaves` and `step` tell the
same. -/
def stepCopies (leaves : Bool → Progress → Bool) (step : Bool → Progress → Progress) :
    (most least : Nat) → (entered : Bool) → Progress → Progress
  | 0, _, _, _ => .none
  | most + 1, least, entered, m =>
    if entered || !m.isNone then
      .join (step entered m.left)
        (stepCopies leaves step most (least - 1) (leaves (entered && least != 0) m.left) m.right)
    else .none

/-- Where the matches stand that come to the pattern here, if it is `entered`, or are under way in
it, when each of them has read the character `c`. -/
def step (here : Place) (c : Char) : Pattern → (entered : Bool) → Progress → Progress
  | one s, entered, _ => if entered && s.has c then .read else .none
  | seq p q, entered, m =>
    if entered || !m.isNone then
      .join (p.step here c entered m.left)
        (q.step here c (p.leaves here entered m.left) m.right)
    else .none
  | alt p q, entered, m =>
    if entered || !m.isNone then
      .join (p.step here c entered m.left) (q.step here c entered m.right)
    else .none
  | copies p least most, entered, m =>
    stepCopies (p.leaves here) (p.step here c) most least entered m
  | plus p, entered, m => p.step here c (entered || p.leaves here false m) m
  | _, _, _ => .none

/-- Some piece of the text matches: one whose match is under way, or one that begins here or
later. -/
def search (p : Pattern) (m : Progress) (first : Bool) : List Char → Bool
  | [] => p.leaves ⟨first, true⟩ true m
  | c :: s =>
    p.leaves ⟨first, false⟩ true m || p.search (p.step ⟨first, false⟩ c true m) false s

/-- Some piece of the text matches the pattern. -/
def isFoundIn (p : Pattern) (s : List Char) : Bool := p.search .none true s

/-! ## Repetition -/

/-- The empty piece matches inside a text. -/
def isOptional (p : Pattern) : Bool := p.leaves ⟨false, false⟩ true .none

/-- From `least` to `most` times, or any number from `least` on. What matches the empty piece need
not occur at all. -/
def times (p : Pattern) (least : Nat) (most : Option Nat) : Pattern :=
  let least := if p.isOptional then 0 else least
  match most, least with
  | some most, least => copies p least most
  | none, 0 => copies (plus p) 0 1
  | none, 1 => plus p
  | none, least => seq (copies p (least - 1) (least - 1)) (plus p)

end Pattern

end TypedTables
