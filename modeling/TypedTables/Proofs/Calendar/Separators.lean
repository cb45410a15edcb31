import Mathlib.Data.List.DropRight
import TypedTables.Calendar.ClockTime
import TypedTables.Calendar.Date
import TypedTables.Proofs.Outcome

/-!
# Separators

No text names a time without a colon, nor a date without a dash or a slash after its first character.
-/

namespace TypedTables.Calendar

open Text

variable {s t : List Char} {c : Char} {n : Nat}

/-! ## Parts of a text -/

theorem suffix_of_trimStart (s : List Char) : trimStart s <:+ s := List.dropWhile_suffix _

theorem mem_of_mem_trim (h : c ∈ trim s) : c ∈ s := by
  have hstart := (List.dropWhile_suffix isBlank).subset (List.mem_reverse.mp h)
  exact (suffix_of_trimStart s).subset (List.mem_reverse.mp hstart)

theorem drop_suffix_tail {ds : List Char} (s : List Char) (h : ds.isEmpty = false) :
    s.drop ds.length <:+ s.tail := by
  cases ds with
  | nil => cases h
  | cons d ds =>
    rw [List.length_cons, ← List.drop_tail]
    exact List.drop_suffix ..

theorem suffix_of_readNumber? {width : Nat} (h : readNumber? width s = some (n, t)) :
    t <:+ (trimStart s).tail := by
  unfold readNumber? at h
  dsimp only at h
  split at h
  · cases h
  · next hsome =>
    cases h
    exact drop_suffix_tail _ (Bool.eq_false_iff.mpr hsome)

theorem subset_of_readNumber? {width : Nat} (h : readNumber? width s = some (n, t)) : t ⊆ s := by
  have hsuffix : t <:+ trimStart s := (suffix_of_readNumber? h).trans (List.tail_suffix _)
  exact (hsuffix.trans (suffix_of_trimStart s)).subset

theorem eq_cons_of_readSeparator? (h : readSeparator? c s = some t) : s = c :: t := by
  cases s with
  | nil => cases h
  | cons d s =>
    rw [readSeparator?] at h
    split at h
    · next hd =>
      cases h
      rw [beq_iff_eq.mp hd]
    · cases h

theorem mem_of_readField? {width : Nat} {u : List Char}
    (hnumber : readNumber? width s = some (n, t)) (hsep : readSeparator? c t = some u) : c ∈ s := by
  apply subset_of_readNumber? hnumber
  rw [eq_cons_of_readSeparator? hsep]
  exact List.mem_cons_self ..

/-! ## Times -/

theorem mem_of_readWithSeconds? {u : ClockTime} (h : ClockTime.readWithSeconds? s = some u) :
    ':' ∈ s := by
  obtain ⟨⟨hour, s₁⟩, hhour, h⟩ := Option.bind_eq_some_iff.mp h
  obtain ⟨s₂, hsep, -⟩ := Option.bind_eq_some_iff.mp h
  exact mem_of_readField? hhour hsep

theorem mem_of_readWithoutSeconds? {u : ClockTime} (h : ClockTime.readWithoutSeconds? s = some u) :
    ':' ∈ s := by
  obtain ⟨⟨hour, s₁⟩, hhour, h⟩ := Option.bind_eq_some_iff.mp h
  obtain ⟨s₂, hsep, -⟩ := Option.bind_eq_some_iff.mp h
  exact mem_of_readField? hhour hsep

theorem mem_of_readClockTime? {text : String} {u : ClockTime} (h : ClockTime.read? text = some u) :
    ':' ∈ text.toList := by
  apply mem_of_mem_trim
  unfold ClockTime.read? at h
  dsimp only at h
  split at h
  · next hread => exact mem_of_readWithSeconds? hread
  · exact mem_of_readWithoutSeconds? h

/-! ## Dates -/

theorem suffix_of_readYear? {y : Int} (h : Date.readYear? s = some (y, t)) :
    t <:+ (trimStart s).tail := by
  unfold Date.readYear? at h
  split at h
  · next rest hs =>
    rw [hs]
    dsimp only at h
    split at h
    · cases h
    · cases h
      exact List.drop_suffix ..
  · next rest hs =>
    rw [hs]
    dsimp only at h
    split at h
    · cases h
    · cases h
      exact List.drop_suffix ..
  · obtain ⟨⟨n, s'⟩, hread, heq⟩ := Option.map_eq_some_iff.mp h
    cases heq
    have hsuffix := suffix_of_readNumber? hread
    rwa [trimStart, trimStart, List.dropWhile_idempotent] at hsuffix

theorem mem_of_readWith? {d : Date} (h : Date.readWith? c s = some d) : c ∈ (trimStart s).tail := by
  obtain ⟨⟨year, s₁⟩, hyear, h⟩ := Option.bind_eq_some_iff.mp h
  obtain ⟨s₂, hsep, -⟩ := Option.bind_eq_some_iff.mp h
  apply (suffix_of_readYear? hyear).subset
  rw [eq_cons_of_readSeparator? hsep]
  exact List.mem_cons_self ..

/-- A text that names a date has a dash or a slash behind its first character that is not blank. -/
theorem mem_of_readDate? {text : String} {d : Date} (h : Date.read? text = some d) :
    '-' ∈ (trimStart (trim text.toList)).tail ∨ '/' ∈ (trimStart (trim text.toList)).tail := by
  unfold Date.read? at h
  dsimp only at h
  split at h
  · next hread => exact .inl (mem_of_readWith? hread)
  · exact .inr (mem_of_readWith? h)

end TypedTables.Calendar
