import TypedTables.Binary64.Basic
import TypedTables.Text.Numeral

/-!
# JSON numbers

A number is whole where it is written as whole and fits 64 bits, with or without sign, and a double
otherwise. Doubles are read in two steps, each of which rounds: the digits are taken as long as they
fit 64 bits, and the result is multiplied or divided by a power of ten.
-/

namespace TypedTables

/-- A number as JSON holds it. -/
inductive Json.Number where
  | whole (n : Int)
  | real (x : Binary64)
  deriving DecidableEq

namespace Json.Number

open Text

def toUnsigned? : Number → Option Nat
  | whole n => if 0 ≤ n ∧ n < UInt64.size then some n.toNat else none
  | real _ => none

def toSigned? : Number → Option Int64
  | whole n =>
    if Int64.minValue.toInt ≤ n ∧ n ≤ Int64.maxValue.toInt then some (Int64.ofInt n) else none
  | real _ => none

def isZero : Number → Bool
  | whole n => n == 0
  | real x => x.magnitude == 0

/-! ## Spellings -/

/-- The parts of a number as written: the digits before and after the point, and the exponent. -/
structure Spelling where
  negative : Bool
  integral : List Char
  fraction : List Char
  exponent : Option Int

/-- An optional minus, digits without leading zeros, then the optional parts. -/
def readSpelling? (s : List Char) : Option Spelling :=
  let (negative, s) :=
    match s with
    | '-' :: s => (true, s)
    | s => (false, s)
  let (integral, rest) := splitDigits s
  if integral.isEmpty || (integral.length != 1 && integral.head? == some '0') then none
  else
    match rest with
    | '.' :: rest =>
      let (fraction, rest) := splitDigits rest
      if fraction.isEmpty then none
      else (readExponent? rest).map (⟨negative, integral, fraction, ·⟩)
    | rest => (readExponent? rest).map (⟨negative, integral, [], ·⟩)

/-! ## Values -/

/-- Takes digits onto a number as long as it fits 64 bits; the digits that are left follow. -/
def takeDigits (n : Nat) : List Char → Nat × List Char
  | [] => (n, [])
  | d :: ds =>
    let next := 10 * n + (d.toNat - '0'.toNat)
    if next < UInt64.size then takeDigits next ds else (n, d :: ds)

/-- The number and the power of ten that the digits before and after the point make. Digits before
the point that do not fit raise the power, those after it are dropped. -/
def significand (integral fraction : List Char) : Nat × Int :=
  let (n, excess) := takeDigits 0 integral
  let (n, dropped) := takeDigits n fraction
  (n, excess.length - (fraction.length - dropped.length))

def divide (negative : Bool) (a b : Binary64) : Binary64 :=
  Binary64.ofRatio negative (Binary64.units a.magnitude) (Binary64.units b.magnitude)

def multiply (negative : Bool) (a b : Binary64) : Binary64 :=
  Binary64.ofRatio negative (Binary64.units a.magnitude * Binary64.units b.magnitude)
    (Binary64.unitsOfOne * Binary64.unitsOfOne)

def powerOfTen (e : Nat) : Binary64 := Binary64.ofDecimal false 1 e

/-- A number that fits 64 bits, times a power of ten. Both are rounded first, and so are the steps
of a division by more than `10 ^ 308`; past `10 ^ 616` nothing is left. A number too big for a
double is `none`. -/
def scale? (negative : Bool) (n : Nat) (e : Int) : Option Binary64 :=
  let size := Binary64.ofInt n
  if n = 0 then some (Binary64.signedZero negative)
  else if 308 < e then none
  else if 0 ≤ e then
    let x := multiply negative size (powerOfTen e.toNat)
    if x.isFinite then some x else none
  else if -308 ≤ e then some (divide negative size (powerOfTen (-e).toNat))
  else if -616 ≤ e then
    some (divide negative (divide negative size (powerOfTen 308)) (powerOfTen (-e - 308).toNat))
  else some (Binary64.signedZero negative)

def ofSpelling? (s : Spelling) : Option Number :=
  let n : Nat := digitsValue s.integral
  let whole? : Option Int :=
    if !s.fraction.isEmpty || s.exponent.isSome then none
    else if s.negative then if 0 < n ∧ Int64.minValue.toInt ≤ -n then some (-n) else none
    else if n < UInt64.size then some n
    else none
  match whole? with
  | some n => some (whole n)
  | none =>
    let (n, e) := significand s.integral s.fraction
    (scale? s.negative n (e + s.exponent.getD 0)).map real

end Json.Number

end TypedTables
