import TypedTables.Pattern.Basic
import TypedTables.Pattern.Bracket

/-!
# Written patterns

The shape of a pattern as it is written, with its groups and its counts. How deeply it nests depends
on all that is written (`WrittenPattern.depth`). What it matches (`WrittenPattern.pattern`) and how
large it is do not depend on the parts that `WrittenPattern.simplified` removes.
-/

namespace TypedTables

/-- A pattern as it is written; the case of letters is settled. -/
inductive WrittenPattern where
  /-- Nothing, or a word on the case of letters. -/
  | nothing
  /-- One character of a set, with the depth to which the set nests. -/
  | one (s : CharSet) (depth : Nat)
  | start
  | finish
  | seq (a b : WrittenPattern)
  | alt (a b : WrittenPattern)
  | repeated (a : WrittenPattern) (least : Nat) (most : Option Nat)
  /-- A group, of which it may be kept what it matches. -/
  | group (kept : Bool) (a : WrittenPattern)
  deriving DecidableEq, Repr

namespace WrittenPattern

def ofSequence : List WrittenPattern → WrittenPattern
  | [] => nothing
  | [a] => a
  | a :: b :: rest => seq a (ofSequence (b :: rest))

def ofBranches : List WrittenPattern → WrittenPattern → WrittenPattern
  | [], a => a
  | a :: rest, b => alt a (ofBranches rest b)

/-! ## Depth -/

/-- What a pattern can be a link of. -/
inductive Chain where
  | seq
  | alt
  deriving DecidableEq, Repr

/-- How deeply a written pattern nests. Sequences and choices count once however long they are;
`chain` is the one that the pattern is a link of. -/
def depth (chain : Option Chain) : WrittenPattern → Nat
  | nothing | start | finish => 0
  | one _ depth => depth
  | seq a b =>
    max (a.depth (some .seq)) (b.depth (some .seq)) + if chain = some .seq then 0 else 1
  | alt a b =>
    max (a.depth (some .alt)) (b.depth (some .alt)) + if chain = some .alt then 0 else 1
  | repeated a _ _ | group _ a => a.depth none + 1

/-! ## Meaning -/

/-- Nothing that matches can hold a character. -/
def neverReads : WrittenPattern → Bool
  | nothing | start | finish => true
  | one _ _ => false
  | seq a b | alt a b => a.neverReads && b.neverReads
  | repeated a _ most => most == some 0 || a.neverReads
  | group _ a => a.neverReads

def set? : WrittenPattern → Option CharSet
  | one s _ => some s
  | alt a b =>
    match a.set?, b.set? with
    | some s, some t => some (s.union t)
    | _, _ => none
  | _ => none

def followedBy : WrittenPattern → WrittenPattern → WrittenPattern
  | nothing, b => b
  | a, nothing => a
  | a, b => seq a b

/-- A repetition, unless it comes to the pattern itself or to nothing. What holds no character need
not be tried twice. -/
def repeatedSimply (a : WrittenPattern) (least : Nat) (most : Option Nat) : WrittenPattern :=
  let (least, most) :=
    if a.neverReads then (min least 1, some ((most.map (min · 1)).getD 1)) else (least, most)
  if most = some 0 then nothing else if least = 1 ∧ most = some 1 then a else repeated a least most

/-- The same pattern without empty parts of sequences, groups that are not kept and repetitions that
make no difference, and with one set for a choice of single characters. The choices in a branch of a
choice (`isBranch`) become branches of it. -/
def simplify (isBranch : Bool) : WrittenPattern → WrittenPattern
  | seq a b => (a.simplify false).followedBy (b.simplify false)
  | alt a b =>
    let choice := alt (a.simplify true) (b.simplify true)
    if isBranch then choice else (choice.set?.map (one · 0)).getD choice
  | repeated a least most => (a.simplify false).repeatedSimply least most
  | group kept a => if kept then group true (a.simplify false) else a.simplify false
  | a => a

def simplified (a : WrittenPattern) : WrittenPattern := a.simplify false

def pattern : WrittenPattern → Pattern
  | nothing => .empty
  | one s _ => .one s
  | start => .start
  | finish => .finish
  | seq a b => .seq a.pattern b.pattern
  | alt a b => .alt a.pattern b.pattern
  | repeated a least most => a.pattern.times least most
  | group _ a => a.pattern

end WrittenPattern

end TypedTables
