import TypedTables.Pattern.Basic

/-!
# What patterns match

Which pieces of a text match a pattern (`Pattern.Matches`), said without the marks with which matches are
followed. A piece is seen between what comes before it and what comes after it, since anchors ask for
these. Further down are the pieces that match the small patterns of which others are made.
-/

namespace TypedTables.Pattern

/-- A number of pieces, one behind the other, of which each is in a relation with what is around it. -/
def Repeated (M : List Char → List Char → List Char → Prop) :
    Nat → List Char → List Char → List Char → Prop
  | 0, _, w, _ => w = []
  | n + 1, a, w, b => ∃ u v, w = u ++ v ∧ M a u (v ++ b) ∧ Repeated M n (a ++ u) v b

def Chained (M : List Char → List Char → List Char → Prop) (a w b : List Char) : Prop :=
  ∃ n, Repeated M n a w b

/-- The piece between two others matches the pattern. Where fewer copies are allowed than asked for, it is
all that are allowed. -/
def Matches : Pattern → (before piece after : List Char) → Prop
  | empty, _, w, _ => w = []
  | one s, _, w, _ => ∃ c, w = [c] ∧ s.has c = true
  | start, a, w, _ => w = [] ∧ a = []
  | finish, _, w, b => w = [] ∧ b = []
  | seq p q, a, w, b => ∃ u v, w = u ++ v ∧ p.Matches a u (v ++ b) ∧ q.Matches (a ++ u) v b
  | alt p q, a, w, b => p.Matches a w b ∨ q.Matches a w b
  | copies p least most, a, w, b => ∃ n, min least most ≤ n ∧ n ≤ most ∧ Repeated p.Matches n a w b
  | plus p, a, w, b => ∃ n, 0 < n ∧ Repeated p.Matches n a w b

variable {M : List Char → List Char → List Char → Prop} {p q : Pattern} {s : CharSet}
  {a b w : List Char} {c : Char} {n least most : Nat}

/-! ## Pieces in a row -/

theorem exists_split_cons {P : List Char → List Char → Prop} :
    (∃ u v, c :: w = u ++ v ∧ P u v) ↔ P [] (c :: w) ∨ ∃ u v, w = u ++ v ∧ P (c :: u) v := by
  constructor
  · rintro ⟨u, v, h, hp⟩
    rcases List.cons_eq_append_iff.mp h with ⟨rfl, rfl⟩ | ⟨u, rfl, rfl⟩
    · exact .inl hp
    · exact .inr ⟨u, v, rfl, hp⟩
  · rintro (hp | ⟨u, v, rfl, hp⟩)
    · exact ⟨[], c :: w, rfl, hp⟩
    · exact ⟨c :: u, v, rfl, hp⟩

theorem Repeated.exists_cons (h : Repeated M n a (c :: w) b) :
    ∃ k u v, k < n ∧ w = u ++ v ∧ M a (c :: u) (v ++ b) ∧ Repeated M k (a ++ c :: u) v b := by
  induction n with
  | zero => cases h
  | succ n ih =>
    rcases exists_split_cons.mp h with ⟨-, hrest⟩ | ⟨u, v, rfl, hfirst, hrest⟩
    · rw [List.append_nil] at hrest
      obtain ⟨k, u, v, hk, hw⟩ := ih hrest
      exact ⟨k, u, v, Nat.lt_succ_of_lt hk, hw⟩
    · exact ⟨n, u, v, Nat.lt_succ_self n, rfl, hfirst, hrest⟩

theorem chained_nil : Chained M a [] b := ⟨0, rfl⟩

theorem chained_cons : Chained M a (c :: w) b ↔
    ∃ u v, w = u ++ v ∧ M a (c :: u) (v ++ b) ∧ Chained M (a ++ c :: u) v b := by
  constructor
  · rintro ⟨n, h⟩
    obtain ⟨k, u, v, -, hw, hu, hv⟩ := h.exists_cons
    exact ⟨u, v, hw, hu, k, hv⟩
  · rintro ⟨u, v, rfl, hu, n, hv⟩
    exact ⟨n + 1, c :: u, v, rfl, hu, hv⟩

theorem matches_plus : (plus p).Matches a w b ↔
    ∃ u v, w = u ++ v ∧ p.Matches a u (v ++ b) ∧ Chained p.Matches (a ++ u) v b := by
  constructor
  · rintro ⟨n, hn, h⟩
    obtain ⟨n, rfl⟩ := Nat.exists_eq_add_of_le' hn
    obtain ⟨u, v, hw, hu, hv⟩ := h
    exact ⟨u, v, hw, hu, n, hv⟩
  · rintro ⟨u, v, hw, hu, n, hv⟩
    exact ⟨n + 1, Nat.succ_pos n, u, v, hw, hu, hv⟩

theorem matches_copies_succ : (copies p (least + 1) (most + 1)).Matches a w b ↔
    (seq p (copies p least most)).Matches a w b := by
  simp only [Matches, Nat.add_min_add_right]
  constructor
  · rintro ⟨n, hleast, hmost, h⟩
    obtain ⟨n, rfl⟩ := Nat.exists_eq_add_of_le' (Nat.le_trans (Nat.le_add_left 1 _) hleast)
    obtain ⟨u, v, hw, hu, hv⟩ := h
    exact ⟨u, v, hw, hu, n, Nat.le_of_add_le_add_right hleast, Nat.le_of_add_le_add_right hmost, hv⟩
  · rintro ⟨u, v, hw, hu, n, hleast, hmost, hv⟩
    exact ⟨n + 1, Nat.add_le_add_right hleast 1, Nat.add_le_add_right hmost 1, u, v, hw, hu, hv⟩

/-- Copies of which none has to be there are none, or a first one that is not empty and others. -/
theorem matches_copies_optional : (copies p 0 (most + 1)).Matches a w b ↔
    w = [] ∨ ∃ u v, w = u ++ v ∧ u ≠ [] ∧ p.Matches a u (v ++ b) ∧
      (copies p 0 most).Matches (a ++ u) v b := by
  simp only [Matches, Nat.zero_min, Nat.zero_le, true_and]
  constructor
  · rintro ⟨n, hn, h⟩
    cases w with
    | nil => exact .inl rfl
    | cons c w =>
      obtain ⟨k, u, v, hk, rfl, hu, hv⟩ := h.exists_cons
      exact .inr ⟨c :: u, v, rfl, List.cons_ne_nil c u, hu, k, by omega, hv⟩
  · rintro (rfl | ⟨u, v, hw, -, hu, n, hn, hv⟩)
    · exact ⟨0, Nat.zero_le _, rfl⟩
    · exact ⟨n + 1, Nat.add_le_add_right hn 1, u, v, hw, hu, hv⟩

/-! ## Small patterns -/

theorem matches_seq : (seq p q).Matches a w b ↔
    ∃ u v, w = u ++ v ∧ p.Matches a u (v ++ b) ∧ q.Matches (a ++ u) v b := Iff.rfl

theorem matches_one_seq : (seq (one s) q).Matches a w b ↔
    ∃ c v, w = c :: v ∧ s.has c = true ∧ q.Matches (a ++ [c]) v b := by
  rw [matches_seq]
  constructor
  · rintro ⟨_, v, rfl, ⟨c, rfl, hc⟩, hv⟩
    exact ⟨c, v, rfl, hc, hv⟩
  · rintro ⟨c, v, rfl, hc, hv⟩
    exact ⟨[c], v, rfl, ⟨c, rfl, hc⟩, hv⟩

theorem matches_start_seq : (seq start q).Matches a w b ↔ a = [] ∧ q.Matches [] w b := by
  rw [matches_seq]
  constructor
  · rintro ⟨_, v, rfl, ⟨rfl, rfl⟩, hv⟩
    exact ⟨rfl, hv⟩
  · rintro ⟨rfl, hw⟩
    exact ⟨[], w, rfl, ⟨rfl, rfl⟩, hw⟩

theorem matches_seq_finish : (seq p finish).Matches a w b ↔ b = [] ∧ p.Matches a w [] := by
  rw [matches_seq]
  constructor
  · rintro ⟨u, _, rfl, hu, rfl, rfl⟩
    rw [List.append_nil]
    exact ⟨rfl, hu⟩
  · rintro ⟨rfl, hw⟩
    exact ⟨w, [], (List.append_nil w).symm, hw, rfl, rfl⟩

theorem repeated_one : Repeated (one s).Matches n a w b ↔
    w.length = n ∧ ∀ c ∈ w, s.has c = true := by
  induction n generalizing a w with
  | zero =>
    rw [Repeated, List.length_eq_zero_iff]
    exact ⟨fun h => ⟨h, by simp [h]⟩, And.left⟩
  | succ n ih =>
    simp only [Repeated, ih]
    constructor
    · rintro ⟨_, v, rfl, ⟨c, rfl, hc⟩, rfl, hv⟩
      exact ⟨rfl, List.forall_mem_cons.mpr ⟨hc, hv⟩⟩
    · rintro ⟨hlength, hw⟩
      obtain ⟨c, v, rfl⟩ := List.exists_cons_of_length_eq_add_one hlength
      have hall := List.forall_mem_cons.mp hw
      exact ⟨[c], v, rfl, ⟨c, rfl, hall.1⟩, Nat.succ.inj hlength, hall.2⟩

theorem matches_plus_one : (plus (one s)).Matches a w b ↔ w ≠ [] ∧ ∀ c ∈ w, s.has c = true := by
  show (∃ n, 0 < n ∧ Repeated (one s).Matches n a w b) ↔ _
  simp only [repeated_one]
  constructor
  · rintro ⟨n, hn, rfl, hw⟩
    exact ⟨List.length_pos_iff.mp hn, hw⟩
  · rintro ⟨hne, hw⟩
    exact ⟨w.length, List.length_pos_iff.mpr hne, rfl, hw⟩

theorem matches_copies_one : (copies (one s) least most).Matches a w b ↔
    min least most ≤ w.length ∧ w.length ≤ most ∧ ∀ c ∈ w, s.has c = true := by
  show (∃ n, min least most ≤ n ∧ n ≤ most ∧ Repeated (one s).Matches n a w b) ↔ _
  simp only [repeated_one]
  constructor
  · rintro ⟨n, hleast, hmost, rfl, hw⟩
    exact ⟨hleast, hmost, hw⟩
  · rintro ⟨hleast, hmost, hw⟩
    exact ⟨w.length, hleast, hmost, rfl, hw⟩

theorem matches_optional : (copies p 0 1).Matches a w b ↔ w = [] ∨ p.Matches a w b := by
  constructor
  · rintro ⟨n, -, hn, h⟩
    rcases Nat.le_one_iff_eq_zero_or_eq_one.mp hn with rfl | rfl
    · exact .inl h
    · obtain ⟨u, _, rfl, hu, rfl⟩ := h
      rw [List.append_nil]
      exact .inr hu
  · rintro (rfl | h)
    · exact ⟨0, Nat.le_refl 0, Nat.zero_le 1, rfl⟩
    · exact ⟨1, Nat.zero_le 1, Nat.le_refl 1, w, [], (List.append_nil w).symm, h, rfl⟩

end TypedTables.Pattern
