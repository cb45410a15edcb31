import TypedTables.Binary64.Basic

/-!
# Fewest digits

The decimal with the fewest digits that reads back as a given double, and of those with as few the
one nearest to it. The decimals that read back fill the interval between the midpoints to the two
neighbouring doubles, ends included when the magnitude is even. The search tries ever finer decimal
grids; on each only the two grid points next to the double can be nearest.
-/

namespace TypedTables.Binary64

/-- The number `digits * 10 ^ exponent`. -/
structure Decimal where
  digits : Nat
  exponent : Int
  deriving DecidableEq

/-- Which of two equally near grid points is taken. -/
inductive Tie where
  | up
  | even
  deriving DecidableEq

def scaleDown (num den : Nat) (k : Int) : Nat × Nat :=
  if 0 ≤ k then (num, den * Nat.pow 10 k.toNat) else (num * Nat.pow 10 (-k).toNat, den)

/-- Whether `d * 10 ^ k` lies in the interval that reads back as the magnitude `m`. The ends are in
multiples of `2^-1075`. -/
def readsBack (m : Nat) (k : Int) (d : Nat) : Bool :=
  let (low, den) := scaleDown (units (m - 1) + units m) (2 * unitsOfOne) k
  let (high, _) := scaleDown (units m + units (m + 1)) (2 * unitsOfOne) k
  if m % 2 = 0 then decide (low ≤ d * den) && decide (d * den ≤ high)
  else decide (low < d * den) && decide (d * den < high)

/-- The nearest point of the grid `10 ^ k` that reads back as the magnitude `m`. -/
def gridPoint? (tie : Tie) (m : Nat) (k : Int) : Option Nat :=
  let (num, den) := scaleDown (units m) unitsOfOne k
  let d := num / den
  let r := num % den
  match readsBack m k d, readsBack m k (d + 1) with
  | true, true =>
    if 2 * r < den then some d
    else if den < 2 * r then some (d + 1)
    else match tie with
      | .up => some (d + 1)
      | .even => some (d + d % 2)
  | true, false => some d
  | false, true => some (d + 1)
  | false, false => none

/-- Tries `grids` grids from `10 ^ k` downward. -/
def firstGrid (tie : Tie) (m : Nat) : (grids : Nat) → (k : Int) → Decimal
  | 0, k => ⟨units m, k⟩
  | grids + 1, k =>
    match gridPoint? tie m k with
    | some d => ⟨d, k⟩
    | none => firstGrid tie m grids (k - 1)

/-- The decimal with the fewest digits for a finite magnitude other than zero. The grid `10^-1074`
holds every double, so the search never runs out. -/
def shortest (tie : Tie) (m : Nat) : Decimal :=
  let start := (Nat.toDigits 10 (units m / unitsOfOne)).length
  firstGrid tie m (start + 1075) start

def Decimal.positional (d : Decimal) : List Char :=
  let ds := Nat.toDigits 10 d.digits
  if 0 ≤ d.exponent then ds ++ List.replicate d.exponent.toNat '0'
  else
    let places := (-d.exponent).toNat
    if places < ds.length then
      ds.take (ds.length - places) ++ '.' :: ds.drop (ds.length - places)
    else '0' :: '.' :: List.replicate (places - ds.length) '0' ++ ds

/-- A double as the fewest digits that read back, always positional. -/
def toText (x : Binary64) : List Char :=
  if x.isNaN then "NaN".toList
  else
    let body :=
      if x.magnitude = 0 then ['0']
      else if x.isFinite then (shortest .up x.magnitude).positional
      else "inf".toList
    if x.negative then '-' :: body else body

instance : ToString Binary64 := ⟨fun x => String.ofList x.toText⟩

end TypedTables.Binary64
