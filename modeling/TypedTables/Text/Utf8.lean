import TypedTables.Text.CharSet

/-!
# UTF-8

The bytes of characters. A range of characters divides into runs, in each of which every byte varies
over a range of its own, whatever the other bytes are.
-/

namespace TypedTables.Text

/-- Ranges of bytes, one for each byte of a character. -/
abbrev ByteRun := List (Nat × Nat)

/-- The runs of the numbers from `lo` to `hi` that are written with `tail` bytes of six bits after a
first byte, to which `mark` is added. -/
def byteRuns (mark : Nat) : (tail lo hi : Nat) → List ByteRun
  | 0, lo, hi => [[(mark + lo, mark + hi)]]
  | tail + 1, lo, hi =>
    let unit := Nat.pow 64 (tail + 1)
    let a := lo / unit
    let b := hi / unit
    let within (n lo hi : Nat) := (byteRuns 0x80 tail lo hi).map ((mark + n, mark + n) :: ·)
    if a = b then within a (lo % unit) (hi % unit)
    else
      let first := if lo % unit = 0 then a else a + 1
      let after := if hi % unit = unit - 1 then b + 1 else b
      let middle := (mark + first, mark + after - 1) :: List.replicate (tail + 1) (0x80, 0xBF)
      (if lo % unit = 0 then [] else within a (lo % unit) (unit - 1)) ++
        (if first < after then [middle] else []) ++
        (if hi % unit = unit - 1 then [] else within b 0 (hi % unit))

/-- Code points of equally many bytes: the mark of the first byte, the number of further bytes, and
the least and greatest code point. The gap has no characters. -/
def byteLengths : List (Nat × Nat × Nat × Nat) := [
    (0, 0, 0, 0x7F), (0xC0, 1, 0x80, 0x7FF), (0xE0, 2, 0x800, 0xD7FF), (0xE0, 2, 0xE000, 0xFFFF),
    (0xF0, 3, 0x10000, 0x10FFFF)
  ]

def rangeRuns (lo hi : Nat) : List ByteRun :=
  byteLengths.flatMap fun (mark, tail, least, most) =>
    if max lo least ≤ min hi most then byteRuns mark tail (max lo least) (min hi most) else []

end TypedTables.Text

namespace TypedTables.CharSet

def byteRuns (s : CharSet) : List Text.ByteRun :=
  s.ranges.flatMap fun (lo, hi) => Text.rangeRuns lo hi

def onlyBytes? (s : CharSet) : Option (List Nat) :=
  match s.ranges with
  | [(lo, hi)] => if lo = hi then (Text.rangeRuns lo lo).head?.map (·.map Prod.fst) else none
  | _ => none

end TypedTables.CharSet
