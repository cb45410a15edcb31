/-!
# Sets of characters

A set of characters is a list of ranges of code points, such as a table of a Unicode property or the
brackets of a pattern give. The operations keep the ranges in increasing order with gaps between
them.
-/

namespace TypedTables

/-- The characters in any of some inclusive ranges of code points. -/
structure CharSet where
  ranges : List (Nat × Nat)
  deriving DecidableEq, Repr

namespace CharSet

def hasCode (s : CharSet) (n : Nat) : Bool :=
  s.ranges.any fun (lo, hi) => decide (lo ≤ n) && decide (n ≤ hi)

def has (s : CharSet) (c : Char) : Bool := s.hasCode c.toNat

def empty : CharSet := ⟨[]⟩

def range (a b : Char) : CharSet := ⟨[(a.toNat, b.toNat)]⟩

def single (c : Char) : CharSet := range c c

/-- Puts a range among others, as one with those that it meets or touches. -/
def insertRange (lo hi : Nat) : List (Nat × Nat) → List (Nat × Nat)
  | [] => [(lo, hi)]
  | (a, b) :: rest =>
    if hi + 1 < a then (lo, hi) :: (a, b) :: rest
    else if b + 1 < lo then (a, b) :: insertRange lo hi rest
    else insertRange (min lo a) (max hi b) rest

def ofCodes (codes : List Nat) : CharSet :=
  ⟨codes.foldl (fun rs n => insertRange n n rs) []⟩

def insertRanges (s : CharSet) (ranges : List (Nat × Nat)) : CharSet :=
  ⟨ranges.foldl (fun rs (lo, hi) => insertRange lo hi rs) s.ranges⟩

/-- The characters of either set; the ranges of the shorter are put among those of the other. -/
def union (s t : CharSet) : CharSet :=
  if s.ranges.length < t.ranges.length then t.insertRanges s.ranges else s.insertRanges t.ranges

def lastCode : Nat := 0x10FFFF

/-- The ranges between others, from `next` on. -/
def gaps (next : Nat) : List (Nat × Nat) → List (Nat × Nat)
  | [] => if next ≤ lastCode then [(next, lastCode)] else []
  | (lo, hi) :: rest =>
    if next < lo then (next, lo - 1) :: gaps (hi + 1) rest else gaps (hi + 1) rest

def complement (s : CharSet) : CharSet := ⟨gaps 0 s.ranges⟩

def inter (s t : CharSet) : CharSet := (s.complement.union t.complement).complement

def diff (s t : CharSet) : CharSet := s.inter t.complement

def symmDiff (s t : CharSet) : CharSet := (s.union t).diff (s.inter t)

end CharSet

end TypedTables
