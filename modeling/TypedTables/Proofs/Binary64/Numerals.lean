import TypedTables.Condition.Literal
import TypedTables.Proofs.Binary64.DisplayLength
import TypedTables.Proofs.Binary64.WholeNumbers
import TypedTables.Proofs.Text.DecimalDigits
import TypedTables.Proofs.Value.Display

/-!
# Numerals

What a numeral is read as, digits with an optional minus and an optional fraction, and how long the
number is displayed that it denotes.
-/

namespace TypedTables

open Text

/-! ## Parts of a numeral -/

def signOf (negative : Bool) : List Char := if negative then ['-'] else []

def pointed : List Char → List Char
  | [] => []
  | d :: ds => '.' :: d :: ds

theorem pointed_of_ne_nil {fraction : List Char} (h : fraction ≠ []) :
    pointed fraction = '.' :: fraction := by
  obtain ⟨d, ds, rfl⟩ := List.exists_cons_of_ne_nil h
  rfl

theorem mem_pointed {fraction : List Char} {c : Char} (h : c ∈ fraction) : c ∈ pointed fraction := by
  rw [pointed_of_ne_nil (List.ne_nil_of_mem h)]
  exact List.mem_cons_of_mem _ h

theorem mem_of_mem_pointed {fraction : List Char} {c : Char} (h : c ∈ pointed fraction) :
    c = '.' ∨ c ∈ fraction := by
  cases fraction with
  | nil => cases h
  | cons d ds => exact List.mem_cons.mp h

theorem isDigits_iff {s : List Char} :
    isDigits s = true ↔ s ≠ [] ∧ ∀ c ∈ s, c.isDigit = true := by
  simp [isDigits, List.isEmpty_eq_false_iff]

theorem Literal.exists_of_isNumeral {s : List Char} (h : Literal.isNumeral s = true) :
    ∃ negative whole fraction, s = signOf negative ++ whole ++ pointed fraction ∧
      isDigits whole = true ∧ fraction.all Char.isDigit = true := by
  obtain ⟨negative, unsigned, rfl, hunsigned⟩ : ∃ negative unsigned, s = signOf negative ++ unsigned ∧
      (isDigits (unsigned.takeWhile (· != '.')) &&
        match unsigned.dropWhile (· != '.') with
        | [] => true
        | _ :: fraction => isDigits fraction) = true := by
    unfold Literal.isNumeral at h
    dsimp only at h
    split at h
    · exact ⟨true, _, rfl, h⟩
    · exact ⟨false, _, rfl, h⟩
  rw [Bool.and_eq_true] at hunsigned
  obtain ⟨hwhole, hfraction⟩ := hunsigned
  have hsplit := List.takeWhile_append_dropWhile (p := (· != '.')) (l := unsigned)
  cases hrest : unsigned.dropWhile (· != '.') with
  | nil =>
    refine ⟨negative, unsigned, [], by simp [pointed], ?_, rfl⟩
    rw [hrest, List.append_nil] at hsplit
    rwa [hsplit] at hwhole
  | cons c fraction =>
    rw [hrest] at hfraction hsplit
    obtain rfl : c = '.' := by
      have := List.head?_dropWhile_not (· != '.') unsigned
      rw [hrest] at this
      simpa using this
    have hdigits := isDigits_iff.mp hfraction
    refine ⟨negative, unsigned.takeWhile (· != '.'), fraction, ?_, hwhole, ?_⟩
    · obtain ⟨d, ds, hds⟩ := List.exists_cons_of_ne_nil hdigits.1
      rw [List.append_assoc, hds, pointed, ← hds, hsplit]
    · simpa using hdigits.2

namespace Binary64

theorem splitSign_signOf {negative : Bool} {c : Char} {s : List Char}
    (hc : decimalDigits.has c = true) : splitSign (signOf negative ++ c :: s) = (negative, c :: s) := by
  cases negative with
  | true => rfl
  | false => exact splitSign_of_decimalDigit hc

theorem read?_of_splitSign {negative : Bool} {c : Char} {s t : List Char}
    (hs : splitSign s = (negative, c :: t)) (hc : decimalDigits.has c = true) :
    read? s = readDecimal? negative (c :: t) := by
  have hcode := code_of_decimalDigit hc
  have hword : ∀ d word, ¬((48 ≤ d.toNat ∧ d.toNat ≤ 57) ∨ 128 ≤ d.toNat) →
      ((c :: t).map Char.toLower == d :: word) = false := by
    intro d word hd
    rw [List.map_cons, toLower_of_decimalDigit hc, beq_eq_false_iff_ne]
    intro heq
    cases heq
    exact hd hcode
  unfold read?
  rw [hs]
  dsimp only
  rw [show "inf".toList = ['i', 'n', 'f'] from rfl, hword 'i' _ (by decide),
    show "infinity".toList = ['i', 'n', 'f', 'i', 'n', 'i', 't', 'y'] from rfl,
    hword 'i' _ (by decide), show "nan".toList = ['n', 'a', 'n'] from rfl,
    hword 'n' _ (by decide)]
  rfl

theorem splitDigits_run {ds rest : List Char} (hds : ∀ c ∈ ds, c.isDigit = true)
    (hrest : Stops Char.isDigit rest) : splitDigits (ds ++ rest) = (ds, rest) := by
  rw [splitDigits, takeWhile_run hds hrest, dropWhile_run hds hrest]

theorem splitDigits_pointed {whole fraction : List Char} (hwhole : ∀ c ∈ whole, c.isDigit = true) :
    splitDigits (whole ++ pointed fraction) = (whole, pointed fraction) := by
  refine splitDigits_run hwhole ?_
  cases fraction with
  | nil => exact stops_nil _
  | cons f fs => exact stops_cons.mpr rfl

theorem readDecimal?_numeral {negative : Bool} {whole fraction : List Char}
    (hwhole : isDigits whole = true) (hfraction : fraction.all Char.isDigit = true) :
    readDecimal? negative (whole ++ pointed fraction) =
      some (ofDecimal negative (digitsValue (whole ++ fraction)) (-fraction.length)) := by
  obtain ⟨hne, hdigits⟩ := isDigits_iff.mp hwhole
  have hempty : whole.isEmpty = false := List.isEmpty_eq_false_iff.mpr hne
  unfold readDecimal?
  rw [splitDigits_pointed hdigits]
  dsimp only
  cases fraction with
  | nil =>
    simp [pointed, hempty, readExponent?]
  | cons f fs =>
    have hrun : splitDigits (f :: fs) = (f :: fs, []) := by
      have h : splitDigits (f :: fs ++ []) = (f :: fs, []) :=
        splitDigits_run (by simpa using hfraction) (stops_nil _)
      rwa [List.append_nil] at h
    simp only [pointed, hrun, hempty, Bool.false_and, Bool.false_eq_true, if_false, readExponent?,
      Option.map_some, Option.getD_none, Int.zero_sub]

theorem read?_numeral {negative : Bool} {whole fraction : List Char} (hwhole : isDigits whole = true)
    (hfraction : fraction.all Char.isDigit = true) :
    read? (signOf negative ++ whole ++ pointed fraction) =
      some (ofDecimal negative (digitsValue (whole ++ fraction)) (-fraction.length)) := by
  obtain ⟨hne, hdigits⟩ := isDigits_iff.mp hwhole
  obtain ⟨c, cs, hcs⟩ := List.exists_cons_of_ne_nil hne
  have hc : decimalDigits.has c = true := decimalDigit_of_isDigit (hdigits c (by simp [hcs]))
  have hsign : splitSign (signOf negative ++ whole ++ pointed fraction) =
      (negative, c :: (cs ++ pointed fraction)) := by
    rw [hcs, List.append_assoc]
    exact splitSign_signOf hc
  rw [read?_of_splitSign hsign hc, ← List.cons_append, ← hcs]
  exact readDecimal?_numeral hwhole hfraction

/-! ## Lengths of what is displayed -/

/-- The number is displayed in no more characters than the numeral has, or the numeral has no fraction
and the number is displayed as a power of ten with a digit more. -/
def DisplayedLike (negative : Bool) (whole fraction : List Char) (x : Binary64) : Prop :=
  x.toText.length ≤ (signOf negative ++ whole ++ pointed fraction).length ∨
    (fraction = [] ∧ x.toText = signOf negative ++ '1' :: List.replicate whole.length '0')

/-- The text is a whole number, and the number that it denotes is displayed as the power of ten with a
digit more. -/
def RoundedUp (s : List Char) (x : Binary64) : Prop :=
  ∃ negative whole, s = signOf negative ++ whole ∧ isDigits whole = true ∧
    x.toText = signOf negative ++ '1' :: List.replicate whole.length '0'

theorem toText_eq {x : Binary64} (h : x.magnitude ≤ infinite) :
    x.toText = signOf x.negative ++
      if x.magnitude = 0 then ['0']
      else if x.magnitude < infinite then (shortest .up x.magnitude).positional
      else "inf".toList := by
  have hnan : x.isNaN = false := decide_eq_false (Nat.not_lt.mpr h)
  have hfinite : (x.isFinite = true) = (x.magnitude < infinite) := by simp [isFinite]
  unfold toText
  simp only [hnan, hfinite, Bool.false_eq_true, if_false]
  cases x.negative <;> rfl

theorem ofDecimal_down (negative : Bool) (digits places : Nat) :
    ofDecimal negative digits (-places) = signedZero negative ∨
      ofDecimal negative digits (-places) = ofRatio negative digits (10 ^ places) := by
  unfold ofDecimal
  split
  · exact .inl rfl
  · rw [if_neg (by omega)]
    split
    · exact .inl rfl
    · split
      · next hzero =>
        obtain rfl : places = 0 := by omega
        exact .inr (by simp)
      · exact .inr (by simp)

theorem roundUnits_lt_infinite {n : Nat} (h : n < 10 ^ 2) :
    roundUnits (n * unitsOfOne) 1 < infinite := by
  have hn : n ≤ wholeLimit := Nat.le_of_lt (Nat.lt_of_lt_of_le h (by decide))
  obtain ⟨m, hm, hunits⟩ := exists_units_of_le hn
  have hround := roundUnits_units (Nat.le_of_lt hm) Nat.one_pos
  rw [Nat.mul_one, hunits] at hround
  rwa [hround]

theorem length_numeral (negative : Bool) (whole fraction : List Char) :
    (signOf negative ++ whole ++ pointed fraction).length =
      (signOf negative).length + (whole.length + if fraction.length = 0 then 0
        else fraction.length + 1) := by
  cases fraction with
  | nil => simp [pointed]
  | cons d ds => simp [pointed, Nat.add_assoc]

theorem decimalSize_neg (d places : Nat) :
    decimalSize d (-places) = ((d * unitsOfOne : ℕ) : ℚ) / ((10 ^ places : ℕ) : ℚ) := by
  rw [decimalSize, zpow_neg, zpow_natCast]
  push_cast
  field_simp

/-- A decimal that is rounded to infinity has as many characters as `inf` at least. -/
theorem three_le_of_not_finite {d w f : Nat} (hd : d < 10 ^ (w + f)) (hw : 0 < w)
    (h : ¬roundUnits (d * unitsOfOne) (10 ^ f) < infinite) :
    3 ≤ w + if f = 0 then 0 else f + 1 := by
  split
  · next hf =>
    by_contra hshort
    have hsmall : d < 10 ^ 2 :=
      Nat.lt_of_lt_of_le hd (Nat.pow_le_pow_right (by decide) (by omega))
    rw [hf, Nat.pow_zero] at h
    exact h (roundUnits_lt_infinite hsmall)
  · omega

theorem displayedLike_ofDecimal (negative : Bool) {whole fraction : List Char}
    (hwhole : isDigits whole = true) (hfraction : fraction.all Char.isDigit = true) :
    DisplayedLike negative whole fraction
      (ofDecimal negative (digitsValue (whole ++ fraction)) (-fraction.length)) := by
  have hpos : 0 < whole.length := List.length_pos_iff.mpr (isDigits_iff.mp hwhole).1
  have hdigits : digitsValue (whole ++ fraction) < 10 ^ (whole.length + fraction.length) := by
    rw [← List.length_append]
    refine digitsValue_lt _ ?_
    rw [List.all_append, hfraction, Bool.and_true]
    simpa using (isDigits_iff.mp hwhole).2
  unfold DisplayedLike
  rw [length_numeral]
  generalize digitsValue (whole ++ fraction) = d at hdigits
  rcases ofDecimal_down negative d fraction.length with hzero | hratio
  · left
    rw [hzero, toText_eq (Nat.zero_le _)]
    simp [signedZero]
    omega
  · rw [hratio]
    obtain ⟨m, hm⟩ : ∃ m, m = roundUnits (d * unitsOfOne) (10 ^ fraction.length) := ⟨_, rfl⟩
    have hle : m ≤ infinite := hm ▸ Nat.min_le_left ..
    have hmagnitude : (ofRatio negative d (10 ^ fraction.length)).magnitude = m := by
      rw [hm, ofRatio]
    rw [toText_eq (hmagnitude ▸ hle), hmagnitude]
    by_cases hzero : m = 0
    · left
      rw [if_pos hzero, List.length_append]
      simp [ofRatio]
      omega
    · rw [if_neg hzero]
      by_cases hfinite : m < infinite
      · rw [if_pos hfinite]
        have hnear : Near m (decimalSize d (-fraction.length)) := by
          rw [decimalSize_neg]
          exact near_of_roundUnits (Nat.pow_pos (by decide)) hm.symm (Nat.pos_of_ne_zero hzero) hfinite
        rcases length_shortest_le (Nat.pos_of_ne_zero hzero) hpos hdigits hnear .up with
          hlength | ⟨hf, hpower⟩
        · left
          rw [List.length_append]
          exact Nat.add_le_add_left hlength _
        · right
          rw [hpower]
          exact ⟨List.length_eq_zero_iff.mp hf, rfl⟩
      · left
        rw [if_neg hfinite, List.length_append]
        exact Nat.add_le_add_left (three_le_of_not_finite hdigits hpos (hm ▸ hfinite)) _

/-- A number that a numeral denotes is displayed in no more characters than the numeral has, unless it
is rounded up to a power of ten. -/
theorem length_toText_of_isNumeral {s : List Char} {x : Binary64}
    (hnumeral : Literal.isNumeral s = true) (h : read? s = some x) :
    x.toText.length ≤ s.length ∨ RoundedUp s x := by
  obtain ⟨negative, whole, fraction, rfl, hwhole, hfraction⟩ :=
    Literal.exists_of_isNumeral hnumeral
  rw [read?_numeral hwhole hfraction] at h
  cases h
  rcases displayedLike_ofDecimal negative hwhole hfraction with hlength | ⟨rfl, hpower⟩
  · exact .inl hlength
  · exact .inr ⟨negative, whole, by simp [pointed], hwhole, hpower⟩

end Binary64

end TypedTables
