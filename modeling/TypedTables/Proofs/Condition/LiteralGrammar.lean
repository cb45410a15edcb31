import TypedTables.Condition.Comparator
import TypedTables.Proofs.Binary64.Nearest
import TypedTables.Proofs.Text.Runs

/-!
# The grammar of literals

Which texts write which literals (`Literal.Writes`), and that just these are read. What stands between
quotes may be anything, further quotes included; only the first and the last character count.
-/

namespace TypedTables

open Text

theorem Comparator.isSymbolChar_of_isNameChar {c : Char} (h : isNameChar c = true) :
    isSymbolChar c = false := by
  rw [Bool.eq_false_iff]
  intro hsymbol
  have hall : "=<>!^~$".toList.all (fun c => !isNameChar c) = true := rfl
  have := List.all_eq_true.mp hall c (List.elem_iff.mp hsymbol)
  rw [h] at this
  cases this

namespace Literal

inductive Writes : List Char → Literal → Prop where
  /-- Any text between two quotes of one kind. -/
  | text {q : Char} (quote : q = '\'' ∨ q = '"') (s : String) :
    Writes (q :: (s.toList ++ [q])) (text s)
  | boolean (b : Bool) : Writes (toString b).toList (boolean b)
  /-- Digits with an optional minus and an optional fraction, for the correctly rounded number. -/
  | number {negative : Bool} {whole fraction : List Char} {x : Binary64}
    (digits : isDigits whole = true) (decimals : ∀ c ∈ fraction, c.isDigit = true)
    (rounded : x.Rounds negative (Binary64.decimalValue whole fraction)) :
    Writes (signOf negative ++ whole ++ pointed fraction)
      (number x (String.ofList (signOf negative ++ whole ++ pointed fraction)))

variable {s : List Char} {l : Literal}

theorem read?_cons (c : Char) (s : List Char) :
    read? (c :: s) = if c == '\'' || c == '"' then readQuoted? c s else readBare? (c :: s) := rfl

/-! ## Reading -/

theorem readQuoted?_eq_some {q : Char} :
    readQuoted? q s = some l ↔ ∃ t : String, s = t.toList ++ [q] ∧ l = text t := by
  unfold readQuoted?
  cases hrev : s.reverse with
  | nil =>
    obtain rfl := List.reverse_eq_nil_iff.mp hrev
    simp
  | cons e inner =>
    obtain rfl : s = inner.reverse ++ [e] := by
      rw [← List.reverse_reverse s, hrev, List.reverse_cons]
    dsimp only
    split
    · next he =>
      obtain rfl := beq_iff_eq.mp he
      constructor
      · intro h
        cases h
        exact ⟨_, by rw [String.toList_ofList], rfl⟩
      · rintro ⟨t, ht, rfl⟩
        rw [List.append_cancel_right ht, String.ofList_toList]
    · next he =>
      constructor
      · intro h
        cases h
      · rintro ⟨t, ht, -⟩
        obtain ⟨-, h⟩ := List.append_inj' ht rfl
        cases h
        simp at he

theorem isNumeral_numeral (negative : Bool) {whole fraction : List Char}
    (hwhole : isDigits whole = true) (hfraction : ∀ c ∈ fraction, c.isDigit = true) :
    isNumeral (signOf negative ++ whole ++ pointed fraction) = true := by
  obtain ⟨hne, hdigits⟩ := isDigits_iff.mp hwhole
  have hrun : ∀ c ∈ whole, (c != '.') = true := by
    intro c hc
    have := hdigits c hc
    rw [bne_iff_ne]
    rintro rfl
    cases this
  have hstop : Stops (· != '.') (pointed fraction) := by
    cases fraction with
    | nil => exact stops_nil _
    | cons d ds => exact stops_cons.mpr rfl
  unfold isNumeral
  extract_lets unsigned
  have hunsigned : unsigned = whole ++ pointed fraction := by
    cases negative with
    | true => rfl
    | false =>
      obtain ⟨c, cs, rfl⟩ := List.exists_cons_of_ne_nil hne
      have hc := hdigits c (List.mem_cons_self ..)
      dsimp only [unsigned]
      split
      · next h =>
        cases h
        cases hc
      · rfl
  rw [hunsigned, takeWhile_run hrun hstop, dropWhile_run hrun hstop, hwhole, Bool.true_and]
  by_cases hnil : fraction = []
  · rw [hnil]
    rfl
  · rw [pointed_of_ne_nil hnil]
    exact isDigits_iff.mpr ⟨hnil, hfraction⟩

theorem exists_head_numeral (negative : Bool) {whole : List Char} (fraction : List Char)
    (hwhole : isDigits whole = true) :
    ∃ c s, signOf negative ++ whole ++ pointed fraction = c :: s ∧ (c = '-' ∨ c.isDigit = true) := by
  obtain ⟨hne, hdigits⟩ := isDigits_iff.mp hwhole
  obtain ⟨d, ds, rfl⟩ := List.exists_cons_of_ne_nil hne
  cases negative with
  | true => exact ⟨'-', _, rfl, .inl rfl⟩
  | false => exact ⟨d, _, rfl, .inr (hdigits d (List.mem_cons_self ..))⟩

theorem readBare?_numeral (negative : Bool) {whole fraction : List Char} {x : Binary64}
    (hwhole : isDigits whole = true) (hfraction : ∀ c ∈ fraction, c.isDigit = true)
    (hx : x.Rounds negative (Binary64.decimalValue whole fraction)) :
    readBare? (signOf negative ++ whole ++ pointed fraction) =
      some (number x (String.ofList (signOf negative ++ whole ++ pointed fraction))) := by
  have hread : Binary64.read? (signOf negative ++ whole ++ pointed fraction) = _ :=
    Binary64.read?_numeral hwhole (List.all_eq_true.mpr hfraction)
  obtain rfl := (Binary64.rounds_of_numeral hwhole (List.all_eq_true.mpr hfraction) hread).unique hx
  obtain ⟨c, s, hs, hc⟩ := exists_head_numeral negative fraction hwhole
  have hword : ∀ d word, d.isDigit = false → d ≠ '-' →
      (signOf negative ++ whole ++ pointed fraction == d :: word) = false := by
    intro d word hd hne
    rw [hs, beq_eq_false_iff_ne]
    intro h
    cases h
    rcases hc with rfl | hc
    · exact hne rfl
    · rw [hc] at hd
      cases hd
  unfold readBare?
  rw [show "true".toList = ['t', 'r', 'u', 'e'] from rfl, hword 't' _ rfl (by decide),
    show "false".toList = ['f', 'a', 'l', 's', 'e'] from rfl, hword 'f' _ rfl (by decide),
    isNumeral_numeral negative hwhole hfraction, hread]
  rfl

theorem readBare?_eq_some (h : readBare? s = some l) : Writes s l := by
  unfold readBare? at h
  split at h
  · next hs =>
    rw [beq_iff_eq.mp hs]
    cases h
    exact .boolean true
  · split at h
    · next hs =>
      rw [beq_iff_eq.mp hs]
      cases h
      exact .boolean false
    · split at h
      · next hnumeral =>
        obtain ⟨x, hx, rfl⟩ := Option.map_eq_some_iff.mp h
        obtain ⟨negative, whole, fraction, rfl, hwhole, hfraction⟩ := exists_of_isNumeral hnumeral
        exact .number hwhole (List.all_eq_true.mp hfraction)
          (Binary64.rounds_of_numeral hwhole hfraction hx)
      · cases h

theorem read?_eq_some_iff : read? s = some l ↔ Writes s l := by
  constructor
  · intro h
    cases s with
    | nil => cases h
    | cons c s =>
      rw [read?_cons] at h
      split at h
      · next hc =>
        obtain ⟨t, rfl, rfl⟩ := readQuoted?_eq_some.mp h
        exact .text (by simpa using hc) t
      · exact readBare?_eq_some h
  · intro h
    cases h with
    | @text q quote s =>
      rw [read?_cons, if_pos (by simpa using quote)]
      exact readQuoted?_eq_some.mpr ⟨s, rfl, rfl⟩
    | boolean b => cases b <;> rfl
    | @number negative whole fraction x hwhole hfraction hx =>
      have hread := readBare?_numeral negative hwhole hfraction hx
      obtain ⟨c, s, hs, hc⟩ := exists_head_numeral negative fraction hwhole
      rw [hs] at hread ⊢
      rw [read?_cons, if_neg]
      · exact hread
      · rcases hc with rfl | hc
        · decide
        · intro hquote
          simp only [Bool.or_eq_true, beq_iff_eq] at hquote
          rcases hquote with rfl | rfl <;> cases hc

/-! ## The ends of a literal -/

theorem exists_last_numeral (negative : Bool) {whole fraction : List Char}
    (hwhole : isDigits whole = true) (hfraction : ∀ c ∈ fraction, c.isDigit = true) :
    ∃ s c, signOf negative ++ whole ++ pointed fraction = s ++ [c] ∧ c.isDigit = true := by
  obtain ⟨hne, hdigits⟩ := isDigits_iff.mp hwhole
  by_cases hnil : fraction = []
  · rw [hnil]
    refine ⟨signOf negative ++ whole.dropLast, whole.getLast hne, ?_, hdigits _ (List.getLast_mem hne)⟩
    rw [List.append_assoc (signOf negative) whole.dropLast, List.dropLast_append_getLast hne]
    exact List.append_nil _
  · refine ⟨signOf negative ++ whole ++ '.' :: fraction.dropLast, fraction.getLast hnil, ?_,
      hfraction _ (List.getLast_mem hnil)⟩
    rw [pointed_of_ne_nil hnil, List.append_assoc _ ('.' :: fraction.dropLast), List.cons_append,
      List.dropLast_append_getLast hnil]

/-- A literal neither begins nor ends with a blank, and does not begin like a comparator. -/
theorem Writes.bare (h : Writes s l) : Bare s ∧ Stops Comparator.isSymbolChar s := by
  cases h with
  | @text q quote s =>
    have hblank : isBlank q = false ∧ Comparator.isSymbolChar q = false := by
      rcases quote with rfl | rfl <;> decide
    refine ⟨⟨stops_cons.mpr hblank.1, ?_⟩, stops_cons.mpr hblank.2⟩
    rw [List.reverse_cons, List.reverse_append]
    exact stops_cons.mpr hblank.1
  | boolean b =>
    cases b <;> exact ⟨⟨stops_cons.mpr rfl, stops_cons.mpr rfl⟩, stops_cons.mpr rfl⟩
  | @number negative whole fraction x hwhole hfraction hx =>
    obtain ⟨c, s, hs, hc⟩ := exists_head_numeral negative fraction hwhole
    obtain ⟨s', e, hs', he⟩ := exists_last_numeral negative hwhole hfraction
    have hfirst : isBlank c = false ∧ Comparator.isSymbolChar c = false := by
      rcases hc with rfl | hc
      · decide
      · have hname := isNameChar_of_isDigit hc
        exact ⟨isBlank_of_isNameChar hname, Comparator.isSymbolChar_of_isNameChar hname⟩
    refine ⟨⟨?_, ?_⟩, ?_⟩
    · rw [hs]
      exact stops_cons.mpr hfirst.1
    · rw [hs', List.reverse_append]
      exact stops_cons.mpr (isBlank_of_isNameChar (isNameChar_of_isDigit he))
    · rw [hs]
      exact stops_cons.mpr hfirst.2

end Literal

end TypedTables
