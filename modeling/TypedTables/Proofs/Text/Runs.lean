import Mathlib.Data.List.TakeWhile
import TypedTables.Text.Ascii
import TypedTables.Text.Blank

/-!
# Runs of characters

A text is cut where a run of characters of one kind ends. The run is as long as can be if no such
character comes after it (`Stops`), and the cut is then the only one.
-/

namespace TypedTables.Text

/-- The text does not begin with such a character. -/
def Stops (p : Char → Bool) (s : List Char) : Prop := ∀ c ∈ s.head?, p c = false

def AllBlank (s : List Char) : Prop := ∀ c ∈ s, isBlank c = true

/-- The text has no white space at its ends. -/
def Bare (s : List Char) : Prop := Stops isBlank s ∧ Stops isBlank s.reverse

section Runs

variable {p : Char → Bool} {run rest : List Char}

theorem stops_nil (p : Char → Bool) : Stops p [] := fun _ h => nomatch h

theorem stops_cons {c : Char} : Stops p (c :: rest) ↔ p c = false := by
  simp [Stops]

/-- The end of a run is seen in what follows it, whether there is more before that or not. -/
theorem Stops.append (hrun : Stops p run) (hrest : Stops p rest) : Stops p (run ++ rest) := by
  cases run with
  | nil => exact hrest
  | cons c run => exact stops_cons.mpr (stops_cons.mp hrun)

theorem stops_of_forall (h : ∀ c ∈ run, p c = false) : Stops p run :=
  fun c hc => h c (List.mem_of_mem_head? hc)

theorem takeWhile_of_stops (h : Stops p rest) : rest.takeWhile p = [] := by
  cases rest with
  | nil => rfl
  | cons c rest => rw [List.takeWhile_cons, stops_cons.mp h]; rfl

theorem dropWhile_of_stops (h : Stops p rest) : rest.dropWhile p = rest := by
  cases rest with
  | nil => rfl
  | cons c rest => rw [List.dropWhile_cons, stops_cons.mp h]; rfl

theorem takeWhile_run (hrun : ∀ c ∈ run, p c = true) (hrest : Stops p rest) :
    (run ++ rest).takeWhile p = run := by
  rw [List.takeWhile_append_of_pos hrun, takeWhile_of_stops hrest, List.append_nil]

theorem dropWhile_run (hrun : ∀ c ∈ run, p c = true) (hrest : Stops p rest) :
    (run ++ rest).dropWhile p = rest := by
  rw [List.dropWhile_append_of_pos hrun, dropWhile_of_stops hrest]

theorem exists_run (p : Char → Bool) (s : List Char) :
    ∃ run rest, s = run ++ rest ∧ (∀ c ∈ run, p c = true) ∧ Stops p rest := by
  refine ⟨s.takeWhile p, s.dropWhile p, List.takeWhile_append_dropWhile.symm,
    fun c hc => List.mem_takeWhile_imp hc, fun c hc => ?_⟩
  have := List.head?_dropWhile_not p s
  rw [hc] at this
  simpa using this

theorem takeWhile_append_of_stops (s : List Char) (h : Stops p rest) :
    (s ++ rest).takeWhile p = s.takeWhile p := by
  obtain ⟨run, s, rfl, hrun, hs⟩ := exists_run p s
  rw [List.append_assoc, takeWhile_run hrun (hs.append h), takeWhile_run hrun hs]

theorem dropWhile_append_of_stops (s : List Char) (h : Stops p rest) :
    (s ++ rest).dropWhile p = s.dropWhile p ++ rest := by
  obtain ⟨run, s, rfl, hrun, hs⟩ := exists_run p s
  rw [List.append_assoc, dropWhile_run hrun (hs.append h), dropWhile_run hrun hs]

end Runs

/-! ## Kinds of characters -/

theorem disjoint_kinds_symm {p q : Char → Bool} (h : ∀ c, p c = true → q c = false) {c : Char}
    (hc : q c = true) : p c = false := by
  rw [Bool.eq_false_iff]
  intro hp
  rw [h c hp] at hc
  cases hc

theorem isNameChar_of_isDigit {c : Char} (h : c.isDigit = true) : isNameChar c = true := by
  rw [isNameChar, Char.isAlphanum, h, Bool.or_true, Bool.true_or]

theorem isBlank_of_isNameChar {c : Char} (h : isNameChar c = true) : isBlank c = false := by
  have hcode : (65 ≤ c.toNat ∧ c.toNat ≤ 90) ∨ (97 ≤ c.toNat ∧ c.toNat ≤ 122) ∨
      (48 ≤ c.toNat ∧ c.toNat ≤ 57) ∨ c.toNat = 95 := by
    delta isNameChar Char.isAlphanum Char.isAlpha Char.isUpper Char.isLower Char.isDigit at h
    simp only [Bool.or_eq_true, Bool.and_eq_true, decide_eq_true_eq, beq_iff_eq,
      UInt32.le_iff_toNat_le, ge_iff_le] at h
    rcases h with ((h | h) | h) | rfl
    · exact .inl h
    · exact .inr (.inl h)
    · exact .inr (.inr (.inl h))
    · exact .inr (.inr (.inr rfl))
  rw [Bool.eq_false_iff]
  intro hblank
  simp only [isBlank, CharSet.has, CharSet.hasCode, blanks, List.any_cons, List.any_nil,
    Bool.or_eq_true, Bool.and_eq_true, decide_eq_true_eq, Bool.false_eq_true, or_false] at hblank
  omega

theorem isNameChar_of_isBlank {c : Char} (h : isBlank c = true) : isNameChar c = false :=
  disjoint_kinds_symm (p := isNameChar) (fun _ => isBlank_of_isNameChar) h

/-! ## White space at the ends -/

variable {a b s : List Char}

theorem trimStart_append (ha : AllBlank a) (hs : Stops isBlank s) : trimStart (a ++ s) = s :=
  dropWhile_run ha hs

theorem trimEnd_append (hb : AllBlank b) (hs : Stops isBlank s.reverse) : trimEnd (s ++ b) = s := by
  have hb : ∀ c ∈ b.reverse, isBlank c = true := fun c hc => hb c (List.mem_reverse.mp hc)
  rw [trimEnd, List.reverse_append, dropWhile_run hb hs, List.reverse_reverse]

theorem trim_append (ha : AllBlank a) (hb : AllBlank b) (hs : Bare s) : trim (a ++ (s ++ b)) = s := by
  rw [trim]
  cases s with
  | nil =>
    have hab : AllBlank (a ++ ([] ++ b)) := by
      intro c hc
      rcases List.mem_append.mp hc with hc | hc
      · exact ha c hc
      · exact hb c hc
    rw [trimStart, List.dropWhile_eq_nil_iff.mpr hab]
    rfl
  | cons c s =>
    have hstop : Stops isBlank (c :: s ++ b) := stops_cons.mpr (stops_cons.mp hs.1)
    rw [trimStart_append ha hstop, trimEnd_append hb hs.2]

theorem Bare.trim_eq (hs : Bare s) : trim s = s := by
  have htrim := trim_append (a := []) (b := []) (fun _ h => nomatch h) (fun _ h => nomatch h) hs
  rwa [List.nil_append, List.append_nil] at htrim

theorem bare_of_isBlank_eq (hs : ∀ c ∈ s, isBlank c = false) : Bare s :=
  ⟨stops_of_forall hs, stops_of_forall fun c hc => hs c (List.mem_reverse.mp hc)⟩

/-- Every text is white space, a text without any at its ends, and white space. -/
theorem exists_trim (s : List Char) :
    ∃ a t b, s = a ++ (t ++ b) ∧ AllBlank a ∧ AllBlank b ∧ Bare t := by
  obtain ⟨a, s, rfl, ha, hs⟩ := exists_run isBlank s
  obtain ⟨b, t, ht, hb, hstop⟩ := exists_run isBlank s.reverse
  have hs' : s = t.reverse ++ b.reverse := by
    rw [← List.reverse_append, ← ht, List.reverse_reverse]
  refine ⟨a, t.reverse, b.reverse, by rw [hs'], ha, fun c hc => hb c (List.mem_reverse.mp hc), ?_, ?_⟩
  · cases hrev : t.reverse with
    | nil => exact stops_nil _
    | cons c r =>
      rw [hs', hrev] at hs
      exact stops_cons.mpr (stops_cons.mp hs)
  · rwa [List.reverse_reverse]

/-- White space at the end is left there, or goes with all the rest. -/
theorem exists_trimStart_append (s : List Char) (hb : AllBlank b) :
    ∃ b', AllBlank b' ∧ trimStart (s ++ b) = trimStart s ++ b' := by
  obtain ⟨a, s, rfl, ha, hs⟩ := exists_run isBlank s
  rw [List.append_assoc, trimStart_append ha hs]
  cases s with
  | nil =>
    refine ⟨[], by simp [AllBlank], ?_⟩
    rw [trimStart, List.nil_append, List.dropWhile_append_of_pos ha]
    exact List.dropWhile_eq_nil_iff.mpr hb
  | cons c s => exact ⟨b, hb, trimStart_append ha (stops_cons.mpr (stops_cons.mp hs))⟩

theorem trim_append_blank (s : List Char) (hb : AllBlank b) : trim (s ++ b) = trim s := by
  obtain ⟨a, t, b', rfl, ha, hb', ht⟩ := exists_trim s
  have hblank : AllBlank (b' ++ b) := fun c hc => (List.mem_append.mp hc).elim (hb' c) (hb c)
  rw [List.append_assoc, List.append_assoc, trim_append ha hblank ht, trim_append ha hb' ht]

end TypedTables.Text
