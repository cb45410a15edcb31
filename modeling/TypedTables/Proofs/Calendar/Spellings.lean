import TypedTables.Proofs.Calendar.Separators
import TypedTables.Proofs.Text.Runs
import TypedTables.Proofs.Value.Display

/-!
# Spellings of times and dates

How times and dates are written with ASCII digits (`ClockTime.Writes`, `Date.Writes`), and what such
texts are read as. All other texts that are read have blanks in them, a sign before the year, a number of
another width or a leap second; at any rate they have no other characters.
-/

namespace TypedTables.Calendar

open Text

/-- Digits for a number, not fewer than `least` and not more than `most`. -/
structure Field (least most : Nat) (ds : List Char) (n : Nat) : Prop where
  digits : ∀ c ∈ ds, c.isDigit = true
  least_le : least ≤ ds.length
  le_most : ds.length ≤ most
  value : digitsValue ds = n

instance (least most : Nat) (ds : List Char) (n : Nat) : Decidable (Field least most ds n) :=
  decidable_of_iff
    (ds.all Char.isDigit = true ∧ least ≤ ds.length ∧ ds.length ≤ most ∧ digitsValue ds = n)
    ⟨fun ⟨digits, least_le, le_most, value⟩ =>
        ⟨List.all_eq_true.mp digits, least_le, le_most, value⟩,
      fun h => ⟨List.all_eq_true.mpr h.digits, h.least_le, h.le_most, h.value⟩⟩

/-- The text is a time of 24 hours, written `H:MM`, `HH:MM`, `H:MM:SS` or `HH:MM:SS`. -/
inductive ClockTime.Writes : List Char → (hour minute second : Nat) → Prop where
  | short {hs ms : List Char} {h m : Nat} (hour : Field 1 2 hs h) (hour_lt : h < 24)
    (minute : Field 2 2 ms m) (minute_lt : m < 60) : Writes (hs ++ ':' :: ms) h m 0
  | long {hs ms ss : List Char} {h m s : Nat} (hour : Field 1 2 hs h) (hour_lt : h < 24)
    (minute : Field 2 2 ms m) (minute_lt : m < 60) (second : Field 2 2 ss s) (second_lt : s < 60) :
    Writes (hs ++ ':' :: (ms ++ ':' :: ss)) h m s

/-- The text is a day of the calendar, written `YYYY-M-D` or `YYYY/M/D`, where months and days may have
two digits. -/
inductive Date.Writes : List Char → (year month day : Nat) → Prop where
  | intro {c : Char} {ys ms ds : List Char} {y m d : Nat} (separator : c = '-' ∨ c = '/')
    (year : Field 4 4 ys y) (month : Field 1 2 ms m) (day : Field 1 2 ds d)
    (exists_day : 1 ≤ d ∧ d ≤ daysIn y m) : Writes (ys ++ c :: (ms ++ c :: ds)) y m d

variable {least most width n : Nat} {ds s t : List Char} {c : Char}

/-! ## Fields -/

theorem Field.ne_nil (h : Field least most ds n) (hleast : 0 < least) : ds ≠ [] :=
  List.length_pos_iff.mp (Nat.lt_of_lt_of_le hleast h.least_le)

theorem stops_take {p : Char → Bool} (ht : Stops p t) (k : Nat) : Stops p (t.take k) := by
  cases k with
  | zero => exact stops_nil p
  | succ k =>
    cases t with
    | nil => exact stops_nil p
    | cons c t => exact stops_cons.mpr (stops_cons.mp ht)

theorem Field.lt_pow (h : Field least most ds n) : n < 10 ^ most := by
  rw [← h.value]
  exact Nat.lt_of_lt_of_le (digitsValue_lt ds (List.all_eq_true.mpr h.digits))
    (Nat.pow_le_pow_right (by decide) h.le_most)

theorem Field.exists_cons (h : Field least most ds n) (hleast : 0 < least) :
    ∃ d ds', ds = d :: ds' ∧ d.isDigit = true := by
  obtain ⟨d, ds', rfl⟩ := List.exists_cons_of_ne_nil (h.ne_nil hleast)
  exact ⟨d, ds', rfl, h.digits d (List.mem_cons_self ..)⟩

theorem Field.trimStart_eq (h : Field least most ds n) (hleast : 0 < least) (t : List Char) :
    trimStart (ds ++ t) = ds ++ t := by
  obtain ⟨d, ds', rfl, hd⟩ := h.exists_cons hleast
  exact dropWhile_of_stops (stops_cons.mpr (isBlank_of_isNameChar (isNameChar_of_isDigit hd)))

theorem Field.readNumber?_eq (h : Field least most ds n) (hleast : 0 < least) (hmost : most ≤ width)
    (ht : Stops Char.isDigit t) : readNumber? width (ds ++ t) = some (n, t) := by
  have hrun : ((ds ++ t).take width).takeWhile Char.isDigit = ds := by
    rw [List.take_append, List.take_of_length_le (Nat.le_trans h.le_most hmost)]
    exact takeWhile_run h.digits (stops_take ht _)
  simp [readNumber?, h.trimStart_eq hleast, hrun, h.ne_nil hleast, h.value]

theorem exists_of_readNumber? (h : readNumber? width s = some (n, t)) :
    ∃ a ds, s = a ++ (ds ++ t) ∧ AllBlank a ∧ ∀ c ∈ ds, c.isDigit = true := by
  obtain ⟨a, s, rfl, ha, hs⟩ := exists_run isBlank s
  rw [readNumber?, trimStart_append ha hs] at h
  split at h
  · cases h
  · cases h
    have hdigits : (s.take width).takeWhile Char.isDigit <+: s :=
      (List.takeWhile_prefix _).trans (List.take_prefix _ _)
    exact ⟨a, _, congrArg (a ++ ·) (List.prefix_iff_eq_append.mp hdigits).symm, ha,
      fun c hc => List.mem_takeWhile_imp hc⟩

/-! ## Characters -/

def Usual (c : Char) : Prop := c.isDigit = true ∨ isBlank c = true ∨ c ∈ [':', '-', '/', '+']

theorem usual_of_readNumber? (h : readNumber? width s = some (n, t)) (ht : ∀ c ∈ t, Usual c) :
    ∀ c ∈ s, Usual c := by
  obtain ⟨a, ds, rfl, ha, hds⟩ := exists_of_readNumber? h
  intro c hc
  rcases List.mem_append.mp hc with hc | hc
  · exact .inr (.inl (ha c hc))
  · rcases List.mem_append.mp hc with hc | hc
    · exact .inl (hds c hc)
    · exact ht c hc

theorem usual_of_readSeparator? (h : readSeparator? c s = some t)
    (hc : c ∈ [':', '-', '/', '+']) (ht : ∀ c ∈ t, Usual c) : ∀ c ∈ s, Usual c := by
  rw [eq_cons_of_readSeparator? h]
  exact List.forall_mem_cons.mpr ⟨.inr (.inr hc), ht⟩

theorem usual_of_isEmpty (h : s.isEmpty = true) : ∀ c ∈ s, Usual c := by
  rw [List.isEmpty_iff.mp h]
  simp

theorem usual_of_trim (h : ∀ c ∈ trim s, Usual c) : ∀ c ∈ s, Usual c := by
  obtain ⟨a, t, b, rfl, ha, hb, ht⟩ := exists_trim s
  rw [trim_append ha hb ht] at h
  intro c hc
  simp only [List.mem_append] at hc
  rcases hc with hc | hc | hc
  · exact .inr (.inl (ha c hc))
  · exact h c hc
  · exact .inr (.inl (hb c hc))

theorem ClockTime.usual_of_readWithSeconds? {u : ClockTime} (h : readWithSeconds? s = some u) :
    ∀ c ∈ s, Usual c := by
  obtain ⟨⟨_, s₁⟩, hhour, h⟩ := Option.bind_eq_some_iff.mp h
  obtain ⟨s₂, hcolon, h⟩ := Option.bind_eq_some_iff.mp h
  obtain ⟨⟨_, s₃⟩, hminute, h⟩ := Option.bind_eq_some_iff.mp h
  obtain ⟨s₄, hcolon', h⟩ := Option.bind_eq_some_iff.mp h
  obtain ⟨⟨_, s₅⟩, hsecond, h⟩ := Option.bind_eq_some_iff.mp h
  dsimp only at h
  split at h
  · next hend =>
    refine usual_of_readNumber? hhour (usual_of_readSeparator? hcolon (by simp) ?_)
    refine usual_of_readNumber? hminute (usual_of_readSeparator? hcolon' (by simp) ?_)
    exact usual_of_readNumber? hsecond (usual_of_isEmpty hend)
  · cases h

theorem ClockTime.usual_of_readWithoutSeconds? {u : ClockTime}
    (h : readWithoutSeconds? s = some u) : ∀ c ∈ s, Usual c := by
  obtain ⟨⟨_, s₁⟩, hhour, h⟩ := Option.bind_eq_some_iff.mp h
  obtain ⟨s₂, hcolon, h⟩ := Option.bind_eq_some_iff.mp h
  obtain ⟨⟨_, s₃⟩, hminute, h⟩ := Option.bind_eq_some_iff.mp h
  dsimp only at h
  split at h
  · next hend =>
    refine usual_of_readNumber? hhour (usual_of_readSeparator? hcolon (by simp) ?_)
    exact usual_of_readNumber? hminute (usual_of_isEmpty hend)
  · cases h

theorem ClockTime.usual_of_read? {text : String} {u : ClockTime} (h : read? text = some u) :
    ∀ c ∈ text.toList, Usual c := by
  refine usual_of_trim ?_
  unfold read? at h
  dsimp only at h
  split at h
  · next hread => exact usual_of_readWithSeconds? hread
  · exact usual_of_readWithoutSeconds? h

theorem Date.usual_of_readYear? {y : Int} (h : readYear? s = some (y, t)) (ht : ∀ c ∈ t, Usual c) :
    ∀ c ∈ s, Usual c := by
  obtain ⟨a, s, rfl, ha, hs⟩ := exists_run isBlank s
  have hsigned : ∀ {s : List Char}, s.drop (s.takeWhile Char.isDigit).length = t →
      ∀ c ∈ s, Usual c := by
    rintro s rfl c hc
    rw [← List.prefix_iff_eq_append.mp (List.takeWhile_prefix (l := s) Char.isDigit)] at hc
    rcases List.mem_append.mp hc with hc | hc
    · exact .inl (List.mem_takeWhile_imp hc)
    · exact ht c hc
  suffices hall : ∀ c ∈ s, Usual c from
    fun c hc => (List.mem_append.mp hc).elim (fun hc => .inr (.inl (ha c hc))) (hall c)
  rw [readYear?, trimStart_append ha hs] at h
  split at h
  · next s =>
    dsimp only at h
    split at h
    · cases h
    · cases h
      exact List.forall_mem_cons.mpr ⟨.inr (.inr (by simp)), hsigned rfl⟩
  · next s =>
    dsimp only at h
    split at h
    · cases h
    · cases h
      exact List.forall_mem_cons.mpr ⟨.inr (.inr (by simp)), hsigned rfl⟩
  · obtain ⟨⟨n, t'⟩, hread, heq⟩ := Option.map_eq_some_iff.mp h
    cases heq
    exact usual_of_readNumber? hread ht

theorem Date.usual_of_readWith? {d : Date} (h : readWith? c s = some d) (hc : c ∈ [':', '-', '/', '+']) :
    ∀ c ∈ s, Usual c := by
  obtain ⟨⟨_, s₁⟩, hyear, h⟩ := Option.bind_eq_some_iff.mp h
  obtain ⟨s₂, hsep, h⟩ := Option.bind_eq_some_iff.mp h
  obtain ⟨⟨_, s₃⟩, hmonth, h⟩ := Option.bind_eq_some_iff.mp h
  obtain ⟨s₄, hsep', h⟩ := Option.bind_eq_some_iff.mp h
  obtain ⟨⟨_, s₅⟩, hday, h⟩ := Option.bind_eq_some_iff.mp h
  dsimp only at h
  split at h
  · next hend =>
    refine usual_of_readYear? hyear (usual_of_readSeparator? hsep hc ?_)
    refine usual_of_readNumber? hmonth (usual_of_readSeparator? hsep' hc ?_)
    exact usual_of_readNumber? hday (usual_of_isEmpty hend)
  · cases h

theorem Date.usual_of_read? {text : String} {d : Date} (h : read? text = some d) :
    ∀ c ∈ text.toList, Usual c := by
  refine usual_of_trim ?_
  unfold read? at h
  dsimp only at h
  split at h
  · next hread => exact usual_of_readWith? hread (by simp)
  · exact usual_of_readWith? h (by simp)

/-! ## Reading -/

theorem stops_isDigit_colon (s : List Char) : Stops Char.isDigit (':' :: s) := stops_cons.mpr rfl

theorem Field.readNumber?_end (h : Field least most ds n) (hleast : 0 < least) (hmost : most ≤ width) :
    readNumber? width ds = some (n, []) := by
  have hread := h.readNumber?_eq hleast hmost (stops_nil _)
  rwa [List.append_nil] at hread

theorem readSeparator?_cons (c : Char) (s : List Char) : readSeparator? c (c :: s) = some s :=
  if_pos (beq_self_eq_true c)

theorem Field.isBlank_eq (h : Field least most ds n) (hc : c ∈ ds) : isBlank c = false :=
  isBlank_of_isNameChar (isNameChar_of_isDigit (h.digits c hc))

namespace ClockTime

variable {hs ms ss : List Char} {hour minute second : Nat}

theorem readWithSeconds?_long (hh : Field 1 2 hs hour) (hm : Field 2 2 ms minute)
    (hsec : Field 2 2 ss second) :
    readWithSeconds? (hs ++ ':' :: (ms ++ ':' :: ss)) = ofNumbers? hour minute second := by
  simp [readWithSeconds?, hh.readNumber?_eq, hm.readNumber?_eq, hsec.readNumber?_end,
    stops_isDigit_colon, readSeparator?_cons]

theorem readWithSeconds?_short (hh : Field 1 2 hs hour) (hm : Field 2 2 ms minute) :
    readWithSeconds? (hs ++ ':' :: ms) = none := by
  simp [readWithSeconds?, hh.readNumber?_eq, hm.readNumber?_end, stops_isDigit_colon,
    readSeparator?]

theorem readWithoutSeconds?_short (hh : Field 1 2 hs hour) (hm : Field 2 2 ms minute) :
    readWithoutSeconds? (hs ++ ':' :: ms) = ofNumbers? hour minute 0 := by
  simp [readWithoutSeconds?, hh.readNumber?_eq, hm.readNumber?_end, stops_isDigit_colon,
    readSeparator?_cons]

theorem Writes.isBlank_eq (h : Writes s hour minute second) : ∀ c ∈ s, isBlank c = false := by
  have hcolon : isBlank ':' = false := by decide
  cases h with
  | short hh _ hm _ =>
    simp only [List.mem_append, List.mem_cons]
    rintro c (hc | rfl | hc)
    · exact hh.isBlank_eq hc
    · exact hcolon
    · exact hm.isBlank_eq hc
  | long hh _ hm _ hsec _ =>
    simp only [List.mem_append, List.mem_cons]
    rintro c (hc | rfl | hc | rfl | hc)
    · exact hh.isBlank_eq hc
    · exact hcolon
    · exact hm.isBlank_eq hc
    · exact hcolon
    · exact hsec.isBlank_eq hc

theorem Writes.exists_read? {text : String} (h : Writes text.toList hour minute second) :
    ∃ t, read? text = some t ∧ t.hour.val = hour ∧ t.minute.val = minute ∧ t.second.val = second := by
  rw [read?, (bare_of_isBlank_eq h.isBlank_eq).trim_eq]
  generalize text.toList = s at h
  cases h with
  | short hh hhlt hm hmlt =>
    rw [readWithSeconds?_short hh hm, readWithoutSeconds?_short hh hm, ofNumbers?,
      dif_pos ⟨hhlt, hmlt, by decide⟩]
    exact ⟨_, rfl, rfl, rfl, rfl⟩
  | long hh hhlt hm hmlt hsec hslt =>
    rw [readWithSeconds?_long hh hm hsec, ofNumbers?, dif_pos ⟨hhlt, hmlt, by omega⟩]
    exact ⟨_, rfl, rfl, rfl, rfl⟩

end ClockTime

namespace Date

variable {ys ms ds : List Char} {year month day : Nat}

theorem readYear?_eq (hy : Field 4 4 ys year) (ht : Stops Char.isDigit t) :
    readYear? (ys ++ t) = some ((year : Int), t) := by
  obtain ⟨d, ys', hcons, hd⟩ := hy.exists_cons (by decide)
  have hread := hy.readNumber?_eq (by decide) (Nat.le_refl 4) ht
  rw [readYear?, hy.trimStart_eq (by decide)]
  split
  · next heq =>
    rw [hcons] at heq
    cases heq
    cases hd
  · next heq =>
    rw [hcons] at heq
    cases heq
    cases hd
  · rw [hread]
    rfl

/-- Years, months and days are read if what stands between them is the separator. -/
theorem readWith?_eq (hy : Field 4 4 ys year) (hm : Field 1 2 ms month) (hd : Field 1 2 ds day)
    {sep c d : Char} (hc : c.isDigit = false) (hd' : d.isDigit = false) :
    readWith? sep (ys ++ c :: (ms ++ d :: ds)) =
      if c = sep ∧ d = sep then ofNumbers? year month day else none := by
  by_cases hcsep : c = sep
  · by_cases hdsep : d = sep
    · subst hcsep
      subst hdsep
      simp [readWith?, readYear?_eq hy (stops_cons.mpr hc), hm.readNumber?_eq, stops_cons.mpr hd',
        hd.readNumber?_end, readSeparator?_cons]
    · simp [readWith?, readYear?_eq hy (stops_cons.mpr hc), hm.readNumber?_eq, stops_cons.mpr hd',
        readSeparator?, hdsep]
  · simp [readWith?, readYear?_eq hy (stops_cons.mpr hc), readSeparator?, hcsep]

theorem Writes.isBlank_eq (h : Writes s year month day) : ∀ c ∈ s, isBlank c = false := by
  cases h with
  | @intro c ys ms ds _ _ _ hsep hy hm hd _ =>
    have hc : isBlank c = false := by rcases hsep with rfl | rfl <;> decide
    simp only [List.mem_append, List.mem_cons]
    rintro c (h | rfl | h | rfl | h)
    · exact hy.isBlank_eq h
    · exact hc
    · exact hm.isBlank_eq h
    · exact hc
    · exact hd.isBlank_eq h

theorem Writes.exists_read? {text : String} (h : Writes text.toList year month day) :
    ∃ d, read? text = some d ∧ d.year = year ∧ d.month = month ∧ d.day = day := by
  rw [read?, (bare_of_isBlank_eq h.isBlank_eq).trim_eq]
  generalize text.toList = s at h
  cases h with
  | @intro c ys ms ds _ _ _ hsep hy hm hd hday =>
    have hc : c.isDigit = false := by rcases hsep with rfl | rfl <;> rfl
    have hyear : (year : Int) ≤ 262142 := by
      have := hy.lt_pow
      omega
    have hnumbers : ofNumbers? year month day = some ⟨year, month, day, ⟨by omega, hyear⟩, hday⟩ :=
      dif_pos ⟨⟨by omega, hyear⟩, hday⟩
    simp only [readWith?_eq hy hm hd hc hc]
    rcases hsep with rfl | rfl
    · simp [hnumbers]
    · simp [hnumbers]

end Date

end TypedTables.Calendar
