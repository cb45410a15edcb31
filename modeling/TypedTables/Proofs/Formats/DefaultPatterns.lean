import TypedTables.Formats.Patterns
import TypedTables.Proofs.Binary64.Numerals
import TypedTables.Proofs.Pattern.Marks

/-!
# The default patterns

What the default patterns are once they are read, and which texts they are found in. Where they ask for a
decimal digit they take one of any script.
-/

namespace TypedTables

open Text

namespace CharSet

variable {a b c : Char}

theorem has_range : (range a b).has c = true ↔ a.toNat ≤ c.toNat ∧ c.toNat ≤ b.toNat := by
  simp [has, hasCode, range]

theorem has_single : (single a).has c = true ↔ c = a := by
  rw [single, has_range, ← Char.toNat_inj]
  omega

end CharSet

namespace Formats

open Pattern

def dateSeparators : CharSet := ⟨[('-'.toNat, '-'.toNat), ('/'.toNat, '/'.toNat)]⟩

theorem has_dateSeparators {c : Char} : dateSeparators.has c = true ↔ c = '-' ∨ c = '/' := by
  simp only [CharSet.has, CharSet.hasCode, dateSeparators, List.any_cons, List.any_nil, Bool.or_false,
    Bool.or_eq_true, Bool.and_eq_true, decide_eq_true_eq, ← Char.toNat_inj]
  omega

def word : List Char → Pattern
  | [] => empty
  | [c] => one (.single c)
  | c :: s => seq (one (.single c)) (word s)

def defaultPatterns : Formats Pattern :=
  let digit := one decimalDigits
  let colon := one (.single ':')
  let sixty := seq (one (.range '0' '5')) digit
  { number :=
      seq start (seq (plus digit) (seq (copies (seq (one (.single '.')) (plus digit)) 0 1) finish))
    integer := seq start (seq (plus digit) finish)
    boolean := seq start (seq (alt (word "true".toList) (word "false".toList)) finish)
    time :=
      seq start (seq
        (alt (seq (copies (one (.range '0' '1')) 0 1) digit)
          (seq (one (.single '2')) (one (.range '0' '3'))))
        (seq colon (seq (one (.range '0' '5')) (seq digit (seq (copies (seq colon sixty) 0 1) finish)))))
    date :=
      seq start (seq (copies digit 4 4) (seq (one dateSeparators) (seq (copies digit 1 2)
        (seq (one dateSeparators) (seq (copies digit 1 2) finish))))) }

theorem readPatterns_default : Config.defaultFormats.readPatterns = .ok defaultPatterns := by
  decide +kernel

variable {w a b : List Char}

/-- Decimal digits of any script. -/
def AllDigits (ds : List Char) : Prop := ∀ c ∈ ds, decimalDigits.has c = true

theorem matches_word (s : List Char) : (word s).Matches a w b ↔ w = s := by
  fun_induction word s generalizing a w with
  | case1 => rfl
  | case2 c =>
    constructor
    · rintro ⟨d, rfl, hd⟩
      rw [CharSet.has_single.mp hd]
    · rintro rfl
      exact ⟨c, rfl, CharSet.has_single.mpr rfl⟩
  | case3 c s _ ih =>
    rw [matches_one_seq]
    simp only [ih, CharSet.has_single]
    constructor
    · rintro ⟨d, v, rfl, rfl, rfl⟩
      rfl
    · rintro rfl
      exact ⟨c, s, rfl, rfl, rfl⟩

/-- A number is digits, and a point and further digits or not. -/
theorem number_isFoundIn : defaultPatterns.number.isFoundIn w = true ↔
    ∃ whole fraction, w = whole ++ pointed fraction ∧ whole ≠ [] ∧ AllDigits whole ∧
      AllDigits fraction := by
  simp only [defaultPatterns, isFoundIn_anchored, matches_seq (p := plus _), matches_plus_one,
    matches_seq_finish, matches_optional, matches_one_seq, CharSet.has_single]
  constructor
  · rintro ⟨_, _, rfl, whole, _, rfl, ⟨hne, hwhole⟩, rfl,
      rfl | ⟨_, fraction, rfl, rfl, hpoint, hfraction⟩⟩
    · exact ⟨whole, [], by simp [pointed], hne, hwhole, by simp [AllDigits]⟩
    · obtain ⟨f, fs, rfl⟩ := List.exists_cons_of_ne_nil hpoint
      exact ⟨whole, f :: fs, by simp [pointed], hne, hwhole, hfraction⟩
  · rintro ⟨whole, fraction, rfl, hne, hwhole, hfraction⟩
    refine ⟨_, [], (List.append_nil _).symm, whole, pointed fraction, rfl, ⟨hne, hwhole⟩, rfl, ?_⟩
    cases fraction with
    | nil => exact .inl rfl
    | cons f fs => exact .inr ⟨'.', f :: fs, rfl, rfl, List.cons_ne_nil f fs, hfraction⟩

theorem integer_isFoundIn : defaultPatterns.integer.isFoundIn w = true ↔ w ≠ [] ∧ AllDigits w := by
  simp only [defaultPatterns, isFoundIn_anchored, matches_seq_finish, matches_plus_one]
  constructor
  · rintro ⟨w, _, rfl, rfl, hw⟩
    rw [List.append_nil]
    exact hw
  · exact fun hw => ⟨w, [], (List.append_nil w).symm, rfl, hw⟩

theorem boolean_isFoundIn : defaultPatterns.boolean.isFoundIn w = true ↔
    w = "true".toList ∨ w = "false".toList := by
  simp only [defaultPatterns, isFoundIn_anchored, matches_seq_finish]
  constructor
  · rintro ⟨w, _, rfl, rfl, hw⟩
    rw [List.append_nil]
    exact hw.imp (matches_word _).mp (matches_word _).mp
  · intro hw
    exact ⟨w, [], (List.append_nil w).symm, rfl, hw.imp (matches_word _).mpr (matches_word _).mpr⟩

/-- Two characters for a number below sixty. -/
inductive Sixtieth : List Char → Prop where
  | intro {t d : Char} (tens : '0'.toNat ≤ t.toNat ∧ t.toNat ≤ '5'.toNat)
    (digit : decimalDigits.has d = true) : Sixtieth [t, d]

/-- One or two characters for an hour. -/
inductive Hour : List Char → Prop where
  | digit {d : Char} (digit : decimalDigits.has d = true) : Hour [d]
  | early {t d : Char} (tens : '0'.toNat ≤ t.toNat ∧ t.toNat ≤ '1'.toNat)
    (digit : decimalDigits.has d = true) : Hour [t, d]
  | late {d : Char} (digit : '0'.toNat ≤ d.toNat ∧ d.toNat ≤ '3'.toNat) : Hour ['2', d]

/-- Seconds behind their colon, if there are any. -/
inductive Seconds : List Char → Prop where
  | none : Seconds []
  | some {s : List Char} (sixtieth : Sixtieth s) : Seconds (':' :: s)

theorem matches_hour : (alt (seq (copies (one (.range '0' '1')) 0 1) (one decimalDigits))
    (seq (one (.single '2')) (one (.range '0' '3')))).Matches a w b ↔ Hour w := by
  constructor
  · rintro (⟨_, _, rfl, ht, d, rfl, hd⟩ | h)
    · rcases matches_optional.mp ht with rfl | ⟨t, rfl, htens⟩
      · exact .digit hd
      · exact .early (CharSet.has_range.mp htens) hd
    · obtain ⟨t, _, rfl, ht, d, rfl, hd⟩ := matches_one_seq.mp h
      rw [CharSet.has_single.mp ht]
      exact .late (CharSet.has_range.mp hd)
  · intro h
    cases h with
    | @digit d hd => exact .inl ⟨[], [d], rfl, matches_optional.mpr (.inl rfl), d, rfl, hd⟩
    | @early t d ht hd =>
      refine .inl ⟨[t], [d], rfl, matches_optional.mpr (.inr ?_), d, rfl, hd⟩
      exact ⟨t, rfl, CharSet.has_range.mpr ht⟩
    | @late d hd =>
      have hlate := CharSet.has_range.mpr hd
      exact .inr (matches_one_seq.mpr ⟨'2', [d], rfl, CharSet.has_single.mpr rfl, d, rfl, hlate⟩)

/-- A time is an hour and a minute, and a second or not. -/
theorem time_isFoundIn : defaultPatterns.time.isFoundIn w = true ↔
    ∃ hour minute seconds, w = hour ++ ':' :: (minute ++ seconds) ∧ Hour hour ∧ Sixtieth minute ∧
      Seconds seconds := by
  simp only [defaultPatterns, isFoundIn_anchored, matches_seq (p := alt _ _), matches_hour,
    matches_one_seq, matches_seq_finish, matches_optional, CharSet.has_single, CharSet.has_range]
  constructor
  · rintro ⟨_, _, rfl, hour, _, rfl, hhour, _, _, rfl, rfl, t, _, rfl, ht, d, _, rfl, hd, rfl,
      hseconds⟩
    refine ⟨hour, [t, d], _, List.append_nil _, hhour, ⟨ht, hd⟩, ?_⟩
    rcases hseconds with rfl | ⟨_, _, rfl, rfl, t', _, rfl, ht', d', rfl, hd'⟩
    · exact .none
    · exact .some ⟨ht', hd'⟩
  · rintro ⟨hour, _, seconds, rfl, hhour, ⟨ht, hd⟩, hseconds⟩
    refine ⟨_, [], (List.append_nil _).symm, hour, _, rfl, hhour, _, _, rfl, rfl, _, _, rfl, ht, _, _, rfl,
      hd, rfl, ?_⟩
    cases hseconds with
    | none => exact .inl rfl
    | some h =>
      obtain ⟨ht', hd'⟩ := h
      exact .inr ⟨_, _, rfl, rfl, _, _, rfl, ht', _, rfl, hd'⟩

/-- A date is a year, a month and a day, with a separator before the last two. -/
theorem date_isFoundIn : defaultPatterns.date.isFoundIn w = true ↔
    ∃ year month day c d, w = year ++ c :: (month ++ d :: day) ∧
      (c = '-' ∨ c = '/') ∧ (d = '-' ∨ d = '/') ∧
      (year.length = 4 ∧ AllDigits year) ∧
      ((1 ≤ month.length ∧ month.length ≤ 2) ∧ AllDigits month) ∧
      ((1 ≤ day.length ∧ day.length ≤ 2) ∧ AllDigits day) := by
  simp only [defaultPatterns, isFoundIn_anchored, matches_seq (p := copies _ _ _), matches_one_seq,
    matches_copies_one, has_dateSeparators]
  constructor
  · rintro ⟨_, _, rfl, year, _, rfl, ⟨hleast, hmost, hyear⟩, c, _, rfl, hc,
      month, _, rfl, ⟨hleast', hmost', hmonth⟩, d, _, rfl, hd,
      day, _, rfl, ⟨hleast'', hmost'', hday⟩, rfl, rfl⟩
    exact ⟨year, month, day, c, d, by simp, hc, hd, ⟨Nat.le_antisymm hmost hleast, hyear⟩,
      ⟨⟨hleast', hmost'⟩, hmonth⟩, ⟨hleast'', hmost''⟩, hday⟩
  · rintro ⟨year, month, day, c, d, rfl, hc, hd, ⟨hlength, hyear⟩, ⟨⟨hleast', hmost'⟩, hmonth⟩,
      ⟨hleast'', hmost''⟩, hday⟩
    exact ⟨_, [], (List.append_nil _).symm, year, _, rfl,
      ⟨Nat.le_of_eq hlength.symm, Nat.le_of_eq hlength, hyear⟩, c, _, rfl, hc,
      month, _, rfl, ⟨hleast', hmost', hmonth⟩, d, _, rfl, hd,
      day, [], (List.append_nil day).symm, ⟨hleast'', hmost'', hday⟩, rfl, rfl⟩

end Formats

end TypedTables
