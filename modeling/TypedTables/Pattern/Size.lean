import TypedTables.Pattern.Written
import TypedTables.Text.Utf8

/-!
# The size of patterns

A written pattern is refused if it is too large (`WrittenPattern.isAllowed`). What is measured are
two automata over the bytes of a text, of which one reads forwards and the other backwards. They
have states for the bytes to be read and for the branchings, and copies of whatever is repeated a
counted number of times. Their sizes are found without building them.

The limits (`WrittenPattern.maxSize`, `WrittenPattern.maxDepth`) are those that the regex engine keeps to
when no others are set: ten mebibytes for an automaton, and 250 levels.
-/

namespace TypedTables

/-! ## Bytes of automata -/

namespace Automaton

open Text (ByteRun)

inductive Direction where
  | forwards
  | backwards
  deriving DecidableEq, Repr

/-- The bytes of a state. -/
def state : Nat := 32

/-- The bytes of a way from a state that has several, by a byte that is read. -/
def edge : Nat := 8

/-- The bytes of a way from a state that has several, by nothing. -/
def branch : Nat := 4

def fork : Nat := state + 2 * branch

def sharedBytes : ByteRun → ByteRun → Nat
  | a :: as, b :: bs => if a = b then sharedBytes as bs + 1 else 0
  | _, _ => 0

/-- The bytes of runs in increasing order, where what a run begins with as the run before does is
not counted again. -/
def newBytes : (before : ByteRun) → List ByteRun → Nat
  | _, [] => 0
  | before, r :: rest => r.length - sharedBytes before r + newBytes r rest

/-- Runs in increasing order, those together that begin alike. -/
def byFirstByte (runs : List ByteRun) : List (List ByteRun) := runs.splitBy (·.head? == ·.head?)

/-- What can follow some bytes, for each beginning of the runs that has something to follow; runs
have at most `length` bytes. -/
def continuations : (length : Nat) → List ByteRun → List (List ByteRun)
  | 0, _ => []
  | length + 1, runs =>
    if runs.all List.isEmpty then []
    else runs :: (byFirstByte runs).flatMap fun group => continuations length (group.map List.tail)

/-- The size for one character of a set. Forwards there is a state for each different continuation.
Backwards there is one for each range of a byte, and runs share the states of the bytes that they
begin with. -/
def setSize (d : Direction) (s : CharSet) : Nat :=
  match s.onlyBytes? with
  | some bytes => bytes.length * state
  | none =>
    let runs := s.byteRuns
    if runs.all (·.length == 1) then 2 * state + runs.length * edge
    else
      match d with
      | .forwards =>
        let sizes := (continuations 4 runs).eraseDups.map fun runs =>
          state + (byFirstByte runs).length * edge
        sizes.foldl (· + ·) state
      | .backwards => 2 * state + newBytes [] runs * state + runs.length * branch

/-- The size for a choice of words, apart from the end, where words that begin alike share states;
no word is longer than `length`. -/
def wordsSize : (length : Nat) → List (List Nat) → Nat
  | 0, _ => 0
  | length + 1, words =>
    match (words.filterMap List.head?).eraseDups with
    | [] => 0
    | firsts =>
      let rest := firsts.map fun b =>
        wordsSize length (words.filterMap fun w => if w.head? = some b then w.tail? else none)
      let reading := if firsts.length = 1 then state else state + firsts.length * edge
      let choosing := state + branch + if words.contains [] then branch else 0
      rest.foldl (· + ·) (reading + choosing)

end Automaton

/-! ## Bytes of patterns -/

namespace WrittenPattern

open Automaton

/-- The fewest characters that a match has; `none` if some part cannot match at all. -/
def shortest? : WrittenPattern → Option Nat
  | nothing | start | finish => some 0
  | one s _ => if s.ranges.isEmpty then none else some 1
  | seq a b =>
    match a.shortest?, b.shortest? with
    | some m, some n => some (m + n)
    | _, _ => none
  | alt a b =>
    match a.shortest?, b.shortest? with
    | some m, some n => some (min m n)
    | _, _ => none
  | repeated a least _ => a.shortest?.map (least * ·)
  | group _ a => a.shortest?

def isAnchoredAtStart : WrittenPattern → Bool
  | start => true
  | seq a b => a.isAnchoredAtStart || (a.neverReads && b.isAnchoredAtStart)
  | alt a b => a.isAnchoredAtStart && b.isAnchoredAtStart
  | repeated a least _ => least != 0 && a.isAnchoredAtStart
  | group _ a => a.isAnchoredAtStart
  | _ => false

def isAnchoredAtFinish : WrittenPattern → Bool
  | finish => true
  | seq a b => b.isAnchoredAtFinish || (b.neverReads && a.isAnchoredAtFinish)
  | alt a b => a.isAnchoredAtFinish && b.isAnchoredAtFinish
  | repeated a least _ => least != 0 && a.isAnchoredAtFinish
  | group _ a => a.isAnchoredAtFinish
  | _ => false

/-- The bytes of the only text that matches, if the pattern is written as one. -/
def word? : WrittenPattern → Option (List Nat)
  | one s _ => s.onlyBytes?
  | seq a b =>
    match a.word?, b.word? with
    | some v, some w => some (v ++ w)
    | _, _ => none
  | _ => none

def words? : WrittenPattern → Option (List (List Nat))
  | alt a b =>
    match a.words?, b.words? with
    | some v, some w => some (v ++ w)
    | _, _ => none
  | a => a.word?.map ([·])

def repeatedSize (one : Nat) (alwaysReads : Bool) : (least : Nat) → (most : Option Nat) → Nat
  | 0, some 1 => fork + one + state
  | 0, none => if alwaysReads then fork + one else 2 * fork + one + state
  | least, none => least * one + fork
  | least, some most =>
    if least = most then least * one
    else (if least = 0 then state else least * one) + state + (most - least) * (fork + one)

/-- The size of a simplified pattern. A branch of a choice has a way to it, and if it is a choice
itself its branches are those of the choice around it. -/
def size (d : Direction) (isBranch : Bool) : WrittenPattern → Nat
  | nothing | start | finish => state + way
  | one s _ => setSize d s + way
  | seq a b => a.size d false + b.size d false + way
  | alt a b =>
    if isBranch then a.size d true + b.size d true
    else
      match (alt a b).words? with
      | some words =>
        let words := if d = .forwards then words else words.map List.reverse
        state + wordsSize ((words.map List.length).foldl max 0) words
      | none => 2 * state + a.size d true + b.size d true
  | repeated a least most =>
    repeatedSize (a.size d false) (a.shortest?.any (0 < ·)) least most + way
  | group _ a => (if d = .forwards then 2 * state else 0) + a.size d false + way
where
  way : Nat := if isBranch then branch else 0

/-- The size of an automaton that searches a text for a simplified pattern: that of the pattern, of
what begins a match anywhere if matches are not tied to the end where reading starts, and of what
reports the match. -/
def searchSize (d : Direction) (a : WrittenPattern) : Nat :=
  let anywhere := fork + 2 * state + edge
  match d with
  | .forwards => a.size d false + (if a.isAnchoredAtStart then state else anywhere) + 3 * state
  | .backwards => a.size d false + (if a.isAnchoredAtFinish then state else anywhere) + state

def maxSize : Nat := 10 * 1024 * 1024

def maxDepth : Nat := 250

def isAllowed (a : WrittenPattern) : Bool :=
  decide (a.depth none ≤ maxDepth) &&
    decide (a.simplified.searchSize .forwards ≤ maxSize) &&
    decide (a.simplified.searchSize .backwards ≤ maxSize)

end WrittenPattern

end TypedTables
