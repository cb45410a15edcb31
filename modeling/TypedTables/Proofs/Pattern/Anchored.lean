import TypedTables.Pattern.Basic

/-!
# Patterns at the start of a text

A pattern that no match has come to and in which none is under way stays so (`leaves_none`,
`step_none`). So a pattern after the start of the text can only match there, and what is found begins
with what the pattern begins with.
-/

namespace TypedTables.Pattern

variable {here : Place} {c : Char} {p q r : Pattern} {s : List Char}

/-! ## Patterns without matches -/

theorem leavesCopies_none {leaves : Bool → Progress → Bool} (most least : Nat) :
    leavesCopies leaves most least false .none = false := by
  cases most with
  | zero => rfl
  | succ most => cases least <;> rfl

theorem stepCopies_none {leaves : Bool → Progress → Bool} {step : Bool → Progress → Progress}
    (most least : Nat) : stepCopies leaves step most least false .none = .none := by
  cases most <;> rfl

theorem leaves_none (here : Place) (p : Pattern) : p.leaves here false .none = false := by
  induction p with
  | empty | one | start | finish | seq | alt => rfl
  | copies p least most => exact leavesCopies_none most least
  | plus p ih => exact ih

theorem step_none (here : Place) (c : Char) (p : Pattern) :
    p.step here c false .none = .none := by
  induction p with
  | empty | one | start | finish | seq | alt => rfl
  | copies p least most => exact stepCopies_none most least
  | plus p ih =>
    show p.step here c (false || p.leaves here false .none) .none = .none
    rw [leaves_none, Bool.or_false, ih]

/-! ## Patterns that begin at the start -/

/-- What follows the start is come to at the start only. -/
theorem leaves_start_seq : (seq start q).leaves here true .none = q.leaves here here.first .none :=
  rfl

theorem step_start_seq :
    (seq start q).step here c true .none = .join .none (q.step here c here.first .none) :=
  rfl

theorem search_start_seq_later (q : Pattern) (s : List Char) :
    (seq start q).search .none false s = false := by
  induction s with
  | nil =>
    rw [search, leaves_start_seq]
    exact leaves_none _ q
  | cons c s ih =>
    rw [search, leaves_start_seq, step_start_seq, leaves_none, step_none]
    exact ih

/-- A pattern that some character of a set must come first in. -/
structure BeginsWith (p : Pattern) (set : CharSet) : Prop where
  /-- The empty piece does not match. -/
  leaves : ∀ here, p.leaves here true .none = false
  /-- No other character is read. -/
  step : ∀ here c, set.has c = false → p.step here c true .none = .none

theorem beginsWith_one (set : CharSet) : (one set).BeginsWith set where
  leaves _ := rfl
  step here c hc := by
    show (if (true && set.has c) = true then Progress.read else .none) = .none
    rw [hc]
    rfl

theorem BeginsWith.plus {set : CharSet} (h : p.BeginsWith set) : (plus p).BeginsWith set where
  leaves := h.leaves
  step := h.step

theorem BeginsWith.seq {set : CharSet} (h : p.BeginsWith set) (q : Pattern) :
    (seq p q).BeginsWith set where
  leaves here := by
    show ((true || _) && q.leaves here (p.leaves here true .none) .none) = false
    rw [h.leaves, leaves_none, Bool.and_false]
  step here c hc := by
    show Progress.join (p.step here c true .none) (q.step here c (p.leaves here true .none) .none) =
      .none
    rw [h.step here c hc, h.leaves, step_none]
    rfl

/-- A text in which a pattern is found that stands after the start begins as the pattern does. -/
theorem BeginsWith.exists_of_isFoundIn {set : CharSet} (h : q.BeginsWith set)
    (hfound : (Pattern.seq start q).isFoundIn s = true) : ∃ c t, s = c :: t ∧ set.has c = true := by
  cases s with
  | nil =>
    rw [isFoundIn, search, leaves_start_seq, h.leaves] at hfound
    cases hfound
  | cons c t =>
    refine ⟨c, t, rfl, ?_⟩
    rw [isFoundIn, search, leaves_start_seq, step_start_seq, h.leaves, Bool.false_or] at hfound
    cases hc : set.has c with
    | true => rfl
    | false =>
      rw [h.step _ _ hc] at hfound
      exact absurd (hfound.symm.trans (search_start_seq_later q t)) (by decide)

end TypedTables.Pattern
