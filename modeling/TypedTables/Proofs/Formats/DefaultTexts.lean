import TypedTables.Proofs.Binary64.Plain
import TypedTables.Proofs.Calendar.Spellings
import TypedTables.Proofs.Formats.DefaultPatterns
import TypedTables.Value.Reader

/-!
# Texts under the default patterns

The texts that a default pattern is found in and that are read as a value of its type. The patterns take
decimal digits of any script and two different separators in a date; the readers take blanks, signs and
exponents, years of any length, and infinity. What both take is plain.
-/

namespace TypedTables

open Text Calendar

/-! ## Digits that are read -/

/-- The decimal digits among the characters of times and dates are ASCII digits. -/
theorem Text.isDigit_of_usual {c : Char} (h : decimalDigits.has c = true) (hc : Usual c) :
    c.isDigit = true := by
  rcases hc with hdigit | hblank | hother
  · exact hdigit
  · rw [isBlank_of_decimalDigit h] at hblank
    cases hblank
  · have hcode := code_of_decimalDigit h
    simp only [List.mem_cons, List.not_mem_nil, or_false] at hother
    rcases hother with rfl | rfl | rfl | rfl <;> exact absurd hcode (by decide)

/-- A decimal without an exponent is digits and points. -/
theorem Binary64.isDigit_or_point_of_readDecimal? {negative : Bool} {s : List Char} {x : Binary64}
    (h : readDecimal? negative s = some x) (hs : ∀ c ∈ s, c ≠ 'e' ∧ c ≠ 'E') :
    ∀ c ∈ s, c.isDigit = true ∨ c = '.' := by
  have hdigits : ∀ {t : List Char}, (splitDigits t).2 = [] → ∀ c ∈ t, c.isDigit = true := by
    intro t ht c hc
    rw [← splitDigits_append t, ht, List.append_nil] at hc
    exact List.mem_takeWhile_imp hc
  have hend : ∀ {empty : Bool} {t : List Char} {f : Option Int → Binary64},
      (if empty then none else (readExponent? t).map f) = some x →
      (∀ c ∈ t, c ≠ 'e' ∧ c ≠ 'E') → t = [] := by
    intro empty t f ht hall
    cases t with
    | nil => rfl
    | cons c t =>
      obtain ⟨he, hE⟩ := hall c (List.mem_cons_self ..)
      simp [readExponent?, he, hE] at ht
  have hwhole : ∀ c ∈ (splitDigits s).1, c.isDigit = true := fun c hc => List.mem_takeWhile_imp hc
  have hsplit := splitDigits_append s
  unfold readDecimal? at h
  dsimp only at h
  rw [← hsplit] at hs ⊢
  generalize (splitDigits s).1 = whole at *
  generalize (splitDigits s).2 = rest at *
  simp only [List.mem_append] at hs ⊢
  split at h
  · have hrest := hend h fun c hc =>
      hs c (.inr (List.mem_cons_of_mem _ (List.dropWhile_subset _ hc)))
    rintro c (hc | hc)
    · exact .inl (hwhole c hc)
    · rcases List.mem_cons.mp hc with rfl | hc
      · exact .inr rfl
      · exact .inl (hdigits hrest c hc)
  · have hrest := hend h fun c hc => hs c (.inr hc)
    rintro c (hc | hc)
    · exact .inl (hwhole c hc)
    · rw [show rest = [] from hrest] at hc
      cases hc

/-- The texts of a type: any text; ASCII digits, and a point and further ones or not; ASCII digits for a
number below `2^63`; a word for a truth value; a time; a day of the calendar. -/
inductive ColumnType.Spelled : ColumnType → List Char → Prop where
  | text (s : List Char) : Spelled .text s
  | number {whole fraction : List Char} (digits : isDigits whole = true)
    (decimals : ∀ c ∈ fraction, c.isDigit = true) : Spelled .number (whole ++ pointed fraction)
  | integer {ds : List Char} (digits : isDigits ds = true) (fits : digitsValue ds ≤ 2 ^ 63 - 1) :
    Spelled .integer ds
  | boolean (b : Bool) : Spelled .boolean (toString b).toList
  | time {s : List Char} {hour minute second : Nat}
    (writes : ClockTime.Writes s hour minute second) : Spelled .time s
  | date {s : List Char} {year month day : Nat} (writes : Date.Writes s year month day) :
    Spelled .date s

namespace Formats

variable {s : String} {w : List Char}

theorem allDigits_of_isDigit (h : ∀ c ∈ w, c.isDigit = true) : AllDigits w :=
  fun c hc => decimalDigit_of_isDigit (h c hc)

theorem AllDigits.isDigit (h : AllDigits w) (hw : ∀ c ∈ w, Usual c) : ∀ c ∈ w, c.isDigit = true :=
  fun c hc => isDigit_of_usual (h c hc) (hw c hc)

/-! ## Numbers -/

theorem spelled_of_number {x : Binary64} (hfound : defaultPatterns.number.isFoundIn w = true)
    (hread : Binary64.read? w = some x) : ColumnType.number.Spelled w := by
  obtain ⟨whole, fraction, rfl, hne, hwhole, hfraction⟩ := number_isFoundIn.mp hfound
  obtain ⟨d, ds, rfl⟩ := List.exists_cons_of_ne_nil hne
  have hdecimal : Binary64.readDecimal? false (d :: ds ++ pointed fraction) = some x := by
    have hd := hwhole d (List.mem_cons_self ..)
    rw [← hread, List.cons_append, Binary64.read?_of_splitSign (splitSign_of_decimalDigit hd) hd]
  have hkind : ∀ c ∈ d :: ds ++ pointed fraction, decimalDigits.has c = true ∨ c = '.' := by
    intro c hc
    rcases List.mem_append.mp hc with hc | hc
    · exact .inl (hwhole c hc)
    · exact (mem_of_mem_pointed hc).symm.imp_left (hfraction c)
  have hall := Binary64.isDigit_or_point_of_readDecimal? hdecimal fun c hc => by
    rcases hkind c hc with hdigit | rfl
    · have hcode := code_of_decimalDigit hdigit
      constructor <;> rintro rfl <;> exact absurd hcode (by decide)
    · decide
  have hdigit : ∀ c ∈ d :: ds ++ pointed fraction, decimalDigits.has c = true → c.isDigit = true := by
    intro c hc hdecimal
    refine (hall c hc).resolve_right ?_
    rintro rfl
    exact absurd (code_of_decimalDigit hdecimal) (by decide)
  refine .number (isDigits_iff.mpr ⟨hne, fun c hc => ?_⟩) fun c hc => ?_
  · exact hdigit c (List.mem_append_left _ hc) (hwhole c hc)
  · exact hdigit c (List.mem_append_right _ (mem_pointed hc)) (hfraction c hc)

theorem number_of_digits {whole fraction : List Char} (hwhole : isDigits whole = true)
    (hfraction : ∀ c ∈ fraction, c.isDigit = true) :
    defaultPatterns.number.isFoundIn (whole ++ pointed fraction) = true := by
  obtain ⟨hne, hdigits⟩ := isDigits_iff.mp hwhole
  exact number_isFoundIn.mpr ⟨whole, fraction, rfl, hne, allDigits_of_isDigit hdigits,
    allDigits_of_isDigit hfraction⟩

/-! ## Whole numbers -/

theorem readInt64?_of_allDigits (hne : w ≠ []) (hw : AllDigits w) :
    readInt64? w = if isDigits w = true ∧ digitsValue w ≤ 2 ^ 63 - 1 then
      some (Int64.ofInt (digitsValue w)) else none := by
  obtain ⟨c, cs, rfl⟩ := List.exists_cons_of_ne_nil hne
  have hmin : Int64.minValue.toInt = -9223372036854775808 := rfl
  have hmax : Int64.maxValue.toInt = 9223372036854775807 := rfl
  rw [readInt64?, readSigned?, splitSign_of_decimalDigit (hw c (List.mem_cons_self ..)), hmin, hmax]
  generalize c :: cs = w
  have hrange : -9223372036854775808 ≤ (digitsValue w : Int) ∧
      (digitsValue w : Int) ≤ 9223372036854775807 ↔ digitsValue w ≤ 2 ^ 63 - 1 := by omega
  by_cases hdigits : isDigits w = true
  · simp only [hdigits, if_true, Bool.false_eq_true, if_false, Option.bind_some, hrange, true_and]
  · simp [hdigits]

theorem spelled_of_integer {i : Int64} (hfound : defaultPatterns.integer.isFoundIn w = true)
    (hread : readInt64? w = some i) : ColumnType.integer.Spelled w := by
  obtain ⟨hne, hw⟩ := integer_isFoundIn.mp hfound
  rw [readInt64?_of_allDigits hne hw, Option.ite_none_right_eq_some] at hread
  exact .integer hread.1.1 hread.1.2

theorem integer_of_digits (hw : isDigits w = true) :
    defaultPatterns.integer.isFoundIn w = true := by
  obtain ⟨hne, hdigits⟩ := isDigits_iff.mp hw
  exact integer_isFoundIn.mpr ⟨hne, allDigits_of_isDigit hdigits⟩

theorem readInt64?_digits (hw : isDigits w = true) (hfits : digitsValue w ≤ 2 ^ 63 - 1) :
    ∃ i, readInt64? w = some i ∧ i.toInt = digitsValue w := by
  obtain ⟨hne, hall⟩ := integer_isFoundIn.mp (integer_of_digits hw)
  refine ⟨Int64.ofInt (digitsValue w), ?_, ?_⟩
  · rw [readInt64?_of_allDigits hne hall, if_pos ⟨hw, hfits⟩]
  · exact Int64.toInt_ofInt_of_le (by omega) (by omega)

/-! ## Times -/

theorem digitsValue_one (a : Char) : digitsValue [a] = a.toNat - 48 := by
  simp [digitsValue]

theorem digitsValue_two (a b : Char) :
    digitsValue [a, b] = 10 * (a.toNat - 48) + (b.toNat - 48) := by
  simp [digitsValue]

theorem Hour.allDigits (h : Hour w) : AllDigits w := by
  have htwo : decimalDigits.has '2' = true := decimalDigit_of_isDigit rfl
  have hone : '1'.toNat = 49 := rfl
  have hthree : '3'.toNat = 51 := rfl
  cases h with
  | digit hd => simpa [AllDigits] using hd
  | @early t d ht hd =>
    have ht := decimalDigit_of_isDigit (isDigit_iff_code.mpr ⟨ht.1, by omega⟩)
    simpa [AllDigits] using ⟨ht, hd⟩
  | @late d hd =>
    have hd := decimalDigit_of_isDigit (isDigit_iff_code.mpr ⟨hd.1, by omega⟩)
    simpa [AllDigits] using ⟨htwo, hd⟩

theorem Sixtieth.allDigits (h : Sixtieth w) : AllDigits w := by
  obtain @⟨t, d, ht, hd⟩ := h
  have hfive : '5'.toNat = 53 := rfl
  have ht := decimalDigit_of_isDigit (isDigit_iff_code.mpr ⟨ht.1, by omega⟩)
  simpa [AllDigits] using ⟨ht, hd⟩

theorem Hour.field (h : Hour w) (hw : ∀ c ∈ w, c.isDigit = true) :
    Field 1 2 w (digitsValue w) ∧ digitsValue w < 24 := by
  have hdigit : ∀ c ∈ w, 48 ≤ c.toNat ∧ c.toNat ≤ 57 := fun c hc => isDigit_iff_code.mp (hw c hc)
  refine ⟨⟨hw, by cases h <;> simp, by cases h <;> simp, rfl⟩, ?_⟩
  cases h with
  | @digit d _ =>
    have := hdigit d (by simp)
    rw [digitsValue_one]
    omega
  | @early t d tens _ =>
    have := hdigit d (by simp)
    have hone : '1'.toNat = 49 := rfl
    rw [digitsValue_two]
    omega
  | @late d digit =>
    have hthree : '3'.toNat = 51 := rfl
    have htwo : '2'.toNat = 50 := rfl
    rw [digitsValue_two]
    omega

theorem Sixtieth.field (h : Sixtieth w) (hw : ∀ c ∈ w, c.isDigit = true) :
    Field 2 2 w (digitsValue w) ∧ digitsValue w < 60 := by
  obtain @⟨t, d, tens, -⟩ := h
  refine ⟨⟨hw, by simp, by simp, rfl⟩, ?_⟩
  have := isDigit_iff_code.mp (hw d (by simp))
  have hfive : '5'.toNat = 53 := rfl
  rw [digitsValue_two]
  omega

theorem hour_of_field {n : Nat} (h : Field 1 2 w n) (hn : n < 24) : Hour w := by
  obtain ⟨hdigits, hleast, hmost, rfl⟩ := h
  match w, hleast, hmost with
  | [d], _, _ => exact .digit (decimalDigit_of_isDigit (hdigits d (by simp)))
  | [t, d], _, _ =>
    have ht := isDigit_iff_code.mp (hdigits t (by simp))
    have hd := isDigit_iff_code.mp (hdigits d (by simp))
    rw [digitsValue_two] at hn
    rcases Nat.lt_or_ge t.toNat 50 with hlow | hhigh
    · exact .early ⟨ht.1, Nat.le_of_lt_succ hlow⟩ (decimalDigit_of_isDigit (hdigits d (by simp)))
    · obtain rfl : t = '2' := Char.toNat_inj.mp (show t.toNat = 50 by omega)
      exact .late ⟨hd.1, show d.toNat ≤ 51 by omega⟩

theorem sixtieth_of_field {n : Nat} (h : Field 2 2 w n) (hn : n < 60) : Sixtieth w := by
  obtain ⟨hdigits, hleast, hmost, rfl⟩ := h
  match w, hleast, hmost with
  | [t, d], _, _ =>
    have ht := isDigit_iff_code.mp (hdigits t (by simp))
    rw [digitsValue_two] at hn
    exact ⟨⟨ht.1, show t.toNat ≤ 53 by omega⟩, decimalDigit_of_isDigit (hdigits d (by simp))⟩

theorem exists_writes_of_time {t : ClockTime}
    (hfound : defaultPatterns.time.isFoundIn s.toList = true) (hread : ClockTime.read? s = some t) :
    ∃ hour minute second, ClockTime.Writes s.toList hour minute second := by
  have husual := ClockTime.usual_of_read? hread
  obtain ⟨hour, minute, seconds, hs, hhour, hminute, hseconds⟩ := time_isFoundIn.mp hfound
  rw [hs] at husual ⊢
  obtain ⟨hh, hhlt⟩ := hhour.field (hhour.allDigits.isDigit fun c hc => husual c (by simp [hc]))
  obtain ⟨hm, hmlt⟩ := hminute.field (hminute.allDigits.isDigit fun c hc => husual c (by simp [hc]))
  cases hseconds with
  | none =>
    rw [List.append_nil]
    exact ⟨_, _, _, .short hh hhlt hm hmlt⟩
  | @some second hsecond =>
    obtain ⟨hsec, hslt⟩ :=
      hsecond.field (hsecond.allDigits.isDigit fun c hc => husual c (by simp [hc]))
    exact ⟨_, _, _, .long hh hhlt hm hmlt hsec hslt⟩

theorem time_of_writes {hour minute second : Nat} (h : ClockTime.Writes w hour minute second) :
    defaultPatterns.time.isFoundIn w = true := by
  cases h with
  | @short hs ms _ _ hh hhlt hm hmlt =>
    exact time_isFoundIn.mpr
      ⟨hs, ms, [], by simp, hour_of_field hh hhlt, sixtieth_of_field hm hmlt, .none⟩
  | @long hs ms ss _ _ _ hh hhlt hm hmlt hsec hslt =>
    exact time_isFoundIn.mpr ⟨hs, ms, ':' :: ss, rfl, hour_of_field hh hhlt,
      sixtieth_of_field hm hmlt, .some (sixtieth_of_field hsec hslt)⟩

/-! ## Dates -/

theorem exists_writes_of_date {d : Date}
    (hfound : defaultPatterns.date.isFoundIn s.toList = true) (hread : Date.read? s = some d) :
    ∃ year month day, Date.Writes s.toList year month day := by
  have husual := Date.usual_of_read? hread
  obtain ⟨year, month, day, c, e, hs, hc, he, ⟨hylength, hydigits⟩, ⟨⟨hmleast, hmmost⟩, hmdigits⟩,
    ⟨⟨hdleast, hdmost⟩, hddigits⟩⟩ := date_isFoundIn.mp hfound
  rw [hs] at husual
  have hy : Field 4 4 year (digitsValue year) :=
    ⟨hydigits.isDigit fun c hc => husual c (by simp [hc]), by omega, by omega, rfl⟩
  have hm : Field 1 2 month (digitsValue month) :=
    ⟨hmdigits.isDigit fun c hc => husual c (by simp [hc]), hmleast, hmmost, rfl⟩
  have hd : Field 1 2 day (digitsValue day) :=
    ⟨hddigits.isDigit fun c hc => husual c (by simp [hc]), hdleast, hdmost, rfl⟩
  have hseparator : ∀ {c : Char}, c = '-' ∨ c = '/' → isBlank c = false ∧ c.isDigit = false := by
    rintro c (rfl | rfl) <;> decide
  have hbare : ∀ c ∈ s.toList, isBlank c = false := by
    rw [hs]
    simp only [List.mem_append, List.mem_cons]
    rintro a (h | rfl | h | rfl | h)
    · exact hy.isBlank_eq h
    · exact (hseparator hc).1
    · exact hm.isBlank_eq h
    · exact (hseparator he).1
    · exact hd.isBlank_eq h
  rw [Date.read?, (bare_of_isBlank_eq hbare).trim_eq, hs] at hread
  simp only [Date.readWith?_eq hy hm hd (hseparator hc).2 (hseparator he).2] at hread
  -- One reader wants hyphens, the other strokes, and neither both.
  obtain ⟨rfl, hnumbers⟩ : e = c ∧
      Date.ofNumbers? (digitsValue year) (digitsValue month) (digitsValue day) = some d := by
    generalize Date.ofNumbers? _ _ _ = numbers at hread ⊢
    rcases hc with rfl | rfl <;> rcases he with rfl | rfl <;> cases numbers <;> simp at hread ⊢ <;>
      exact hread
  rw [Date.ofNumbers?, Option.dite_none_right_eq_some] at hnumbers
  obtain ⟨hexists, -⟩ := hnumbers
  rw [hs]
  exact ⟨_, _, _, .intro hc hy hm hd hexists.2⟩

theorem date_of_writes {year month day : Nat} (h : Date.Writes w year month day) :
    defaultPatterns.date.isFoundIn w = true := by
  cases h with
  | @intro c ys ms ds _ _ _ hc hy hm hd _ =>
    exact date_isFoundIn.mpr ⟨ys, ms, ds, c, c, rfl, hc, hc,
      ⟨Nat.le_antisymm hy.le_most hy.least_le, allDigits_of_isDigit hy.digits⟩,
      ⟨⟨hm.least_le, hm.le_most⟩, allDigits_of_isDigit hm.digits⟩,
      ⟨hd.least_le, hd.le_most⟩, allDigits_of_isDigit hd.digits⟩

end Formats
end TypedTables
