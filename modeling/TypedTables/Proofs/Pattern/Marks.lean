import Mathlib.Tactic.Tauto
import TypedTables.Proofs.Pattern.Anchored
import TypedTables.Proofs.Pattern.Matches

/-!
# Marks follow matches

The marks that are kept while a text is searched follow all matches at once, and are right about them: a
match comes out of a pattern if it was let in and the piece read since then matches, or if it was under way
before (`Tracks`). So a pattern is found in a text just if some piece of the text matches it
(`isFoundIn_iff`).
-/

namespace TypedTables.Pattern

variable {p q : Pattern} {m : Progress} {entered : Bool} {a b w : List Char} {c : Char}

/-- A match comes out of the pattern when it has read a piece: one that is let in before the piece, if it
is `entered`, or one that is under way there. None is let in later. -/
def Completes (p : Pattern) : (entered : Bool) → Progress → (before piece after : List Char) → Prop
  | entered, m, a, [], b => p.leaves ⟨a.isEmpty, b.isEmpty⟩ entered m = true
  | entered, m, a, c :: w, b => Completes p false (p.step ⟨a.isEmpty, false⟩ c entered m) (a ++ [c]) w b

/-- The matches that come out of the pattern are those that were let in and whose piece matches, and
those that were under way. -/
def Tracks (p : Pattern) : Prop :=
  ∀ entered m a w b, p.Completes entered m a w b ↔
    (entered = true ∧ p.Matches a w b) ∨ p.Completes false m a w b

theorem completes_nil :
    p.Completes entered m a [] b ↔ p.leaves ⟨a.isEmpty, b.isEmpty⟩ entered m = true := Iff.rfl

theorem completes_cons : p.Completes entered m a (c :: w) b ↔
    p.Completes false (p.step ⟨a.isEmpty, false⟩ c entered m) (a ++ [c]) w b := Iff.rfl

theorem not_completes_none : ¬p.Completes false .none a w b := by
  induction w generalizing a with
  | nil =>
    rw [completes_nil, leaves_none]
    exact Bool.false_ne_true
  | cons c w ih =>
    rw [completes_cons, step_none]
    exact ih

/-- It is enough to look at matches that are let in. -/
theorem tracks_of_entered (h : ∀ m a w b, p.Completes true m a w b ↔
    p.Matches a w b ∨ p.Completes false m a w b) : p.Tracks := by
  intro entered m a w b
  cases entered with
  | false => simp
  | true => simpa using h m a w b

/-! ## Anchors and characters -/

/-- A pattern that reads nothing, and that matches come out of as soon as they are let in where it
allows it. -/
theorem tracks_of_unread {allows : Place → Bool}
    (hleaves : ∀ here entered m, p.leaves here entered m = (entered && allows here))
    (hstep : ∀ here c entered m, p.step here c entered m = .none)
    (hmatches : ∀ a w b, p.Matches a w b ↔ w = [] ∧ allows ⟨a.isEmpty, b.isEmpty⟩ = true) :
    p.Tracks := by
  intro entered m a w b
  rw [hmatches]
  cases w with
  | nil => simp [completes_nil, hleaves]
  | cons c w =>
    rw [completes_cons, completes_cons, hstep, hstep]
    simp [not_completes_none]

theorem tracks_empty : empty.Tracks :=
  tracks_of_unread (fun _ entered _ => (Bool.and_true entered).symm) (fun _ _ _ _ => rfl)
    fun _ _ _ => by simp [Matches]

theorem tracks_start : start.Tracks :=
  tracks_of_unread (fun _ _ _ => rfl) (fun _ _ _ _ => rfl) fun _ _ _ => by simp [Matches]

theorem tracks_finish : finish.Tracks :=
  tracks_of_unread (fun _ _ _ => rfl) (fun _ _ _ _ => rfl) fun _ _ _ => by simp [Matches]

theorem completes_one_read {s : CharSet} : (one s).Completes false .read a w b ↔ w = [] := by
  cases w with
  | nil => simp [completes_nil, leaves, Progress.isRead]
  | cons c w => exact iff_of_false not_completes_none (List.cons_ne_nil c w)

theorem tracks_one (s : CharSet) : (one s).Tracks := by
  refine tracks_of_entered fun m a w b => ?_
  cases w with
  | nil => simp [completes_nil, leaves, Matches]
  | cons c w =>
    have hlater : ¬(one s).Completes false m a (c :: w) b := not_completes_none
    rw [or_iff_left hlater, completes_cons, step, Bool.true_and]
    cases hc : s.has c with
    | true =>
      rw [if_pos rfl, completes_one_read]
      constructor
      · rintro rfl
        exact ⟨c, rfl, hc⟩
      · rintro ⟨d, h, -⟩
        exact (List.cons.inj h).2
    | false =>
      rw [if_neg Bool.false_ne_true]
      refine iff_of_false not_completes_none ?_
      rintro ⟨d, h, hd⟩
      rw [← (List.cons.inj h).1, hc] at hd
      cases hd

/-! ## Sequences and choices -/

@[simp] theorem Progress.left_none : Progress.none.left = .none := rfl

@[simp] theorem Progress.right_none : Progress.none.right = .none := rfl

@[simp] theorem Progress.left_join (l r : Progress) : (Progress.join l r).left = l := by
  unfold Progress.join
  split <;> rfl

@[simp] theorem Progress.right_join (l r : Progress) : (Progress.join l r).right = r := by
  unfold Progress.join
  split <;> rfl

theorem Progress.eq_none_of_guard (h : (entered || !m.isNone) = false) :
    entered = false ∧ m = .none := by
  rw [Bool.or_eq_false_iff] at h
  cases m with
  | none => exact ⟨h.1, rfl⟩
  | read => exact absurd h.2 (by decide)
  | parts l r => exact absurd h.2 (by simp [isNone])

theorem leaves_seq (here : Place) : (seq p q).leaves here entered m =
    q.leaves here (p.leaves here entered m.left) m.right := by
  rw [leaves]
  cases hguard : entered || !m.isNone with
  | true => rw [Bool.true_and]
  | false =>
    obtain ⟨rfl, rfl⟩ := Progress.eq_none_of_guard hguard
    rw [Progress.left_none, Progress.right_none, leaves_none, leaves_none, Bool.false_and]

theorem step_seq (here : Place) : (seq p q).step here c entered m =
    .join (p.step here c entered m.left) (q.step here c (p.leaves here entered m.left) m.right) := by
  rw [step]
  cases hguard : entered || !m.isNone with
  | true => rw [if_pos rfl]
  | false =>
    obtain ⟨rfl, rfl⟩ := Progress.eq_none_of_guard hguard
    rw [if_neg Bool.false_ne_true, Progress.left_none, Progress.right_none, leaves_none, step_none,
      step_none]
    rfl

theorem leaves_alt (here : Place) : (alt p q).leaves here entered m =
    (p.leaves here entered m.left || q.leaves here entered m.right) := by
  rw [leaves]
  cases hguard : entered || !m.isNone with
  | true => rw [Bool.true_and]
  | false =>
    obtain ⟨rfl, rfl⟩ := Progress.eq_none_of_guard hguard
    rw [Progress.left_none, Progress.right_none, leaves_none, leaves_none]
    rfl

theorem step_alt (here : Place) : (alt p q).step here c entered m =
    .join (p.step here c entered m.left) (q.step here c entered m.right) := by
  rw [step]
  cases hguard : entered || !m.isNone with
  | true => rw [if_pos rfl]
  | false =>
    obtain ⟨rfl, rfl⟩ := Progress.eq_none_of_guard hguard
    rw [if_neg Bool.false_ne_true, Progress.left_none, Progress.right_none, step_none, step_none]
    rfl

/-- A match comes out of a sequence when it comes out of the first part and what is left matches the
second, or when it was under way in the second. -/
theorem completes_seq (hq : q.Tracks) : (seq p q).Completes entered m a w b ↔
    (∃ u v, w = u ++ v ∧ p.Completes entered m.left a u (v ++ b) ∧ q.Matches (a ++ u) v b) ∨
      q.Completes false m.right a w b := by
  induction w generalizing entered m a with
  | nil =>
    rw [completes_nil, leaves_seq, ← completes_nil (p := q), hq, ← completes_nil (p := p)]
    simp [and_assoc]
  | cons c w ih =>
    rw [completes_cons, step_seq, ih, Progress.left_join, Progress.right_join, exists_split_cons,
      ← completes_cons (p := q), hq, ← or_assoc]
    simp only [completes_cons, completes_nil, List.append_assoc, List.append_nil, List.nil_append,
      List.cons_append, List.isEmpty_cons]
    exact or_congr_left or_comm

theorem Tracks.seq (hp : p.Tracks) (hq : q.Tracks) : (seq p q).Tracks := by
  refine tracks_of_entered fun m a w b => ?_
  rw [completes_seq hq, completes_seq hq, Matches, ← or_assoc]
  refine or_congr_left ?_
  simp only [hp true, true_and, or_and_right, and_or_left, exists_or]

theorem completes_alt : (alt p q).Completes entered m a w b ↔
    p.Completes entered m.left a w b ∨ q.Completes entered m.right a w b := by
  induction w generalizing entered m a with
  | nil => rw [completes_nil, leaves_alt, Bool.or_eq_true, ← completes_nil, ← completes_nil]
  | cons c w ih =>
    rw [completes_cons, step_alt, ih, Progress.left_join, Progress.right_join]
    exact Iff.rfl

theorem Tracks.alt (hp : p.Tracks) (hq : q.Tracks) : (alt p q).Tracks := by
  refine tracks_of_entered fun m a w b => ?_
  rw [completes_alt, completes_alt, hp, hq, Matches]
  tauto

/-! ## Counted copies -/

theorem completes_congr (hleaves : ∀ here entered m, p.leaves here entered m = q.leaves here entered m)
    (hstep : ∀ here c entered m, p.step here c entered m = q.step here c entered m) :
    p.Completes entered m a w b ↔ q.Completes entered m a w b := by
  induction w generalizing entered m a with
  | nil => rw [completes_nil, completes_nil, hleaves]
  | cons c w ih => rw [completes_cons, completes_cons, hstep, ih]

theorem tracks_copies_none (p : Pattern) (least : Nat) : (copies p least 0).Tracks := by
  refine @tracks_of_unread (copies p least 0) (fun _ => true)
    (fun _ entered _ => (Bool.and_true entered).symm) (fun _ _ _ _ => rfl) fun a w b => ?_
  simp [Matches, Repeated]

theorem Tracks.copies_succ {least most : Nat} (hp : p.Tracks) (h : (copies p least most).Tracks) :
    (copies p (least + 1) (most + 1)).Tracks := by
  have hcomplete : ∀ entered m a w b, (copies p (least + 1) (most + 1)).Completes entered m a w b ↔
      (Pattern.seq p (copies p least most)).Completes entered m a w b := by
    intro entered m a w b
    refine completes_congr (fun _ _ _ => rfl) fun here c entered m => ?_
    simp [step, stepCopies]
  intro entered m a w b
  rw [hcomplete, hcomplete, hp.seq h, matches_copies_succ]

/-- A match that need not go through a copy is let out at once, and goes through the first copy only by
reading. -/
theorem completes_copies_optional {most : Nat} (h : (copies p 0 most).Tracks) :
    (copies p 0 (most + 1)).Completes entered m a w b ↔
      (entered = true ∧ w = []) ∨
      (∃ u v, w = u ++ v ∧ p.Completes (entered && !u.isEmpty) m.left a u (v ++ b) ∧
        (copies p 0 most).Matches (a ++ u) v b) ∨
      (copies p 0 most).Completes false m.right a w b := by
  have hleaves : ∀ here entered m, (copies p 0 (most + 1)).leaves here entered m =
      (entered || (copies p 0 most).leaves here (p.leaves here false m.left) m.right) := by
    intro here entered m
    rw [leaves, leavesCopies, leaves]
    cases m <;> simp [Progress.isNone, leaves_none, leavesCopies_none]
  have hstep : ∀ here c entered m, (copies p 0 (most + 1)).step here c entered m =
      .join (p.step here c entered m.left)
        ((copies p 0 most).step here c (p.leaves here false m.left) m.right) := by
    intro here c entered m
    rw [step, stepCopies, step]
    cases hguard : entered || !m.isNone with
    | true => simp
    | false =>
      obtain ⟨rfl, rfl⟩ := Progress.eq_none_of_guard hguard
      simp [leaves_none, step_none, stepCopies_none, Progress.join]
  induction w generalizing entered m a with
  | nil =>
    rw [completes_nil, hleaves, Bool.or_eq_true, ← completes_nil (p := copies p 0 most), h,
      ← completes_nil (p := p)]
    simp [and_assoc]
  | cons c w ih =>
    rw [completes_cons, hstep]
    refine Iff.trans ih ?_
    rw [Progress.left_join, Progress.right_join, exists_split_cons,
      ← completes_cons (p := copies p 0 most), h]
    simp only [completes_cons, completes_nil, List.append_assoc, List.append_nil, List.nil_append,
      List.cons_append, List.isEmpty_cons, List.isEmpty_nil, Bool.not_true, Bool.not_false,
      Bool.and_true, Bool.and_false, Bool.false_and, Bool.false_eq_true, false_and, false_or,
      reduceCtorEq, and_false]
    rw [← or_assoc]
    exact or_congr_left or_comm

theorem Tracks.copies_optional {most : Nat} (hp : p.Tracks) (h : (copies p 0 most).Tracks) :
    (copies p 0 (most + 1)).Tracks := by
  refine tracks_of_entered fun m a w b => ?_
  rw [completes_copies_optional h, completes_copies_optional h, matches_copies_optional]
  -- A first copy that reads something has been let in here or was under way.
  have hfirst : ∀ u v, p.Completes (true && !u.isEmpty) m.left a u (v ++ b) ↔
      (u ≠ [] ∧ p.Matches a u (v ++ b)) ∨ p.Completes false m.left a u (v ++ b) := by
    intro u v
    rw [hp]
    cases u <;> simp
  simp only [hfirst, true_and, Bool.false_and, Bool.false_eq_true, false_and, false_or, or_and_right,
    and_or_left, exists_or, and_assoc, or_assoc]

theorem Tracks.copies {least most : Nat} (hp : p.Tracks) : (copies p least most).Tracks := by
  induction most generalizing least with
  | zero => exact tracks_copies_none p least
  | succ most ih =>
    cases least with
    | zero => exact hp.copies_optional ih
    | succ least => exact hp.copies_succ ih

/-! ## Repetition without end -/

/-- A match comes out of a repetition when it comes out of one round and what is left is read in further
rounds. -/
theorem completes_plus (hp : p.Tracks) : (plus p).Completes entered m a w b ↔
    ∃ u v, w = u ++ v ∧ p.Completes entered m a u (v ++ b) ∧ Chained p.Matches (a ++ u) v b := by
  induction w generalizing entered m a with
  | nil =>
    have hleaves : (plus p).Completes entered m a [] b ↔ p.Completes entered m a [] b := Iff.rfl
    rw [hleaves]
    simp [chained_nil, and_assoc]
  | cons c w ih =>
    have hstep : (plus p).Completes entered m a (c :: w) b ↔ (plus p).Completes false
        (p.step ⟨a.isEmpty, false⟩ c (entered || p.leaves ⟨a.isEmpty, false⟩ false m) m)
        (a ++ [c]) w b := Iff.rfl
    rw [hstep, ih, exists_split_cons]
    simp only [List.append_nil, List.append_assoc, List.singleton_append, ← completes_cons]
    constructor
    · rintro ⟨u, v, rfl, hread, hrest⟩
      rcases (hp ..).mp hread with ⟨hentered, hmatch⟩ | hunder
      · rcases (Bool.or_eq_true _ _).mp hentered with hentered | hround
        · exact .inr ⟨u, v, rfl, (hp ..).mpr (.inl ⟨hentered, hmatch⟩), hrest⟩
        · exact .inl ⟨(hp ..).mpr (.inr hround), chained_cons.mpr ⟨u, v, rfl, hmatch, hrest⟩⟩
      · exact .inr ⟨u, v, rfl, (hp ..).mpr (.inr hunder), hrest⟩
    · rintro (⟨hround, hrest⟩ | ⟨u, v, rfl, hread, hrest⟩)
      · obtain ⟨u, v, rfl, hmatch, hrest⟩ := chained_cons.mp hrest
        refine ⟨u, v, rfl, (hp ..).mpr (.inl ⟨?_, hmatch⟩), hrest⟩
        rcases (hp ..).mp hround with ⟨hentered, -⟩ | hround
        · rw [hentered, Bool.true_or]
        · exact (Bool.or_eq_true _ _).mpr (.inr hround)
      · refine ⟨u, v, rfl, ?_, hrest⟩
        rcases (hp ..).mp hread with ⟨hentered, hmatch⟩ | hunder
        · exact (hp ..).mpr (.inl ⟨by rw [hentered, Bool.true_or], hmatch⟩)
        · exact (hp ..).mpr (.inr hunder)

theorem Tracks.plus (hp : p.Tracks) : (plus p).Tracks := by
  refine tracks_of_entered fun m a w b => ?_
  rw [completes_plus hp, completes_plus hp, matches_plus]
  simp only [hp true, true_and, or_and_right, and_or_left, exists_or]

/-! ## All patterns -/

/-- The marks are right about every pattern. -/
theorem tracks (p : Pattern) : p.Tracks := by
  induction p with
  | empty => exact tracks_empty
  | one s => exact tracks_one s
  | start => exact tracks_start
  | finish => exact tracks_finish
  | seq p q hp hq => exact hp.seq hq
  | alt p q hp hq => exact hp.alt hq
  | copies p least most hp => exact hp.copies
  | plus p hp => exact hp.plus

/-- A search lets matches in at every place, so it finds what was under way and what matches here or
later. -/
theorem search_iff (s : List Char) : p.search m a.isEmpty s = true ↔
    (∃ w b, s = w ++ b ∧ p.Completes false m a w b) ∨
      ∃ x y, s = x ++ y ∧ ∃ w b, y = w ++ b ∧ p.Matches (a ++ x) w b := by
  induction s generalizing m a with
  | nil =>
    have hhere : p.search m a.isEmpty [] = true ↔ p.Completes true m a [] [] := Iff.rfl
    rw [hhere, p.tracks]
    simp [and_assoc, or_comm]
  | cons c s ih =>
    have hlater := @ih (p.step ⟨a.isEmpty, false⟩ c true m) (a ++ [c])
    rw [List.isEmpty_eq_false_iff.mpr (List.append_ne_nil_of_right_ne_nil a (List.cons_ne_nil c []))]
      at hlater
    have hhere : p.leaves ⟨a.isEmpty, false⟩ true m = true ↔ p.Completes true m a [] (c :: s) := Iff.rfl
    rw [search, Bool.or_eq_true, hlater, hhere]
    simp only [← completes_cons, exists_split_cons, p.tracks true, true_and, List.append_nil,
      List.append_assoc, List.singleton_append, and_or_left, exists_or]
    exact Iff.of_eq (by ac_rfl)

/-- A pattern is found in a text just if some piece of the text matches it. -/
theorem isFoundIn_iff (p : Pattern) (s : List Char) : p.isFoundIn s = true ↔
    ∃ a w b, s = a ++ (w ++ b) ∧ p.Matches a w b := by
  have h := search_iff (p := p) (m := .none) (a := []) s
  have hnone : ¬∃ w b, s = w ++ b ∧ p.Completes false .none [] w b :=
    fun ⟨_, _, _, h⟩ => not_completes_none h
  refine (h.trans (or_iff_right hnone)).trans ?_
  clear h
  constructor
  · rintro ⟨a, _, rfl, w, b, rfl, h⟩
    exact ⟨a, w, b, rfl, h⟩
  · rintro ⟨a, w, b, rfl, h⟩
    exact ⟨a, w ++ b, rfl, w, b, rfl, h⟩

theorem isFoundIn_anchored (s : List Char) :
    (seq start q).isFoundIn s = true ↔ ∃ w b, s = w ++ b ∧ q.Matches [] w b := by
  rw [isFoundIn_iff]
  simp only [matches_start_seq]
  constructor
  · rintro ⟨_, w, b, rfl, rfl, hw⟩
    exact ⟨w, b, rfl, hw⟩
  · rintro ⟨w, b, rfl, hw⟩
    exact ⟨[], w, b, rfl, rfl, hw⟩

end TypedTables.Pattern
