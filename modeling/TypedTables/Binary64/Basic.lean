/-!
# Binary64 numbers

A double is its sign bit and its magnitude, the other 63 bits read as a number. Magnitudes are in
the order of the sizes they stand for, so comparing doubles is comparing magnitudes. `units` gives
the size of a finite magnitude exactly, as a multiple of the smallest positive double `2^-1074`, and
`roundUnits` is its inverse on all sizes: nearest, of two nearest the one with an even magnitude.
-/

namespace TypedTables

/-- The number of magnitudes from one power of two to the next, `2^52`. -/
def Binary64.binade : Nat := 0x10000000000000

/-- A double: sign and remaining 63 bits. -/
structure Binary64 where
  negative : Bool
  magnitude : Nat
  magnitude_lt : magnitude < 2048 * Binary64.binade
  deriving DecidableEq

namespace Binary64

/-- The magnitude of infinity; greater ones are not numbers. -/
def infinite : Nat := 2047 * binade

def undefined : Nat := infinite + binade / 2

theorem infinite_lt : infinite < 2048 * binade := by decide

theorem undefined_lt : undefined < 2048 * binade := by decide

def signedZero (negative : Bool) : Binary64 := ⟨negative, 0, by decide⟩

def zero : Binary64 := signedZero false

def infinity (negative : Bool) : Binary64 := ⟨negative, infinite, infinite_lt⟩

def nan (negative : Bool) : Binary64 := ⟨negative, undefined, undefined_lt⟩

def isNaN (x : Binary64) : Bool := decide (infinite < x.magnitude)

def isFinite (x : Binary64) : Bool := decide (x.magnitude < infinite)

instance : Inhabited Binary64 := ⟨zero⟩

/-! ## Sizes -/

/-- The size of a magnitude in multiples of `2^-1074`. Up to twice a binade these are the magnitudes
themselves; from then on they are twice as far apart in each binade as in the one before. -/
def units (m : Nat) : Nat :=
  if m < 2 * binade then m else (binade + m % binade) <<< (m / binade - 1)

def unitsOfOne : Nat := 1 <<< 1074

/-- The whole number nearest to `num / den`, of two nearest the even one. -/
def roundHalfEven (num den : Nat) : Nat :=
  let q := num / den
  let r := num % den
  if 2 * r < den then q
  else if den < 2 * r then q + 1
  else q + q % 2

/-- The magnitude nearest to `num / den` multiples of `2^-1074`; sizes of `2^1024` and more, and
those that round to it, are infinite. -/
def roundUnits (num den : Nat) : Nat :=
  let shift := (num / den).log2 - 52
  min infinite (shift * binade + roundHalfEven num (den <<< shift))

theorem roundUnits_lt (num den : Nat) : roundUnits num den < 2048 * binade :=
  Nat.lt_of_le_of_lt (Nat.min_le_left ..) infinite_lt

def ofRatio (negative : Bool) (num den : Nat) : Binary64 :=
  ⟨negative, roundUnits (num * unitsOfOne) den, roundUnits_lt ..⟩

def ofInt (n : Int) : Binary64 := ofRatio (decide (n < 0)) n.natAbs 1

/-- The double nearest to `±digits * 10 ^ exponent`. Exponents far beyond the range of doubles are
settled without computing the power. -/
def ofDecimal (negative : Bool) (digits : Nat) (exponent : Int) : Binary64 :=
  if digits = 0 then signedZero negative
  else if 310 < exponent then infinity negative
  else if exponent + digits.log2 < -340 then signedZero negative
  else if 0 ≤ exponent then ofRatio negative (digits * Nat.pow 10 exponent.toNat) 1
  else ofRatio negative digits (Nat.pow 10 (-exponent).toNat)

/-- A finite double in multiples of `2^-1074`, with its sign. -/
def signedUnits (x : Binary64) : Int :=
  if x.negative then -(units x.magnitude : Int) else units x.magnitude

/-- The double nearest to one more than a finite double; others stay as they are. -/
def addOne (x : Binary64) : Binary64 :=
  if x.isFinite then
    let sum := x.signedUnits + unitsOfOne
    ⟨decide (sum < 0), roundUnits sum.natAbs 1, roundUnits_lt ..⟩
  else x

/-! ## Orders -/

/-- The place of a double in the numeric order, in which both zeros are one. -/
def place (x : Binary64) : Int := if x.negative then -(x.magnitude : Int) else x.magnitude

/-- The numeric order, in which nothing compares with a double that is not a number. -/
def compare? (x y : Binary64) : Option Ordering :=
  if x.isNaN || y.isNaN then none else some (compare x.place y.place)

/-- The place of a double in the total order, in which the negative of a double comes before all
doubles of smaller magnitude. -/
def totalPlace (x : Binary64) : Int :=
  if x.negative then -(x.magnitude : Int) - 1 else x.magnitude

/-- The total order of all doubles: the numeric one where that decides, with `-0` before `0`, and
the doubles that are not numbers at either end. -/
def totalCompare (x y : Binary64) : Ordering := compare x.totalPlace y.totalPlace

def sameNumber (x y : Binary64) : Bool := x.compare? y == some .eq

end Binary64

end TypedTables
