import TypedTables.Binary64.Basic

/-!
# Equal numbers

Two doubles compare as equal if both are numbers and have the same place in the numeric order. They are the
same if their signs and their magnitudes are.
-/

namespace TypedTables.Binary64

variable {x y : Binary64}

theorem eq_of_magnitude_eq (hsign : x.negative = y.negative) (h : x.magnitude = y.magnitude) :
    x = y := by
  obtain ⟨sign, magnitude, lt⟩ := x
  obtain ⟨sign', magnitude', lt'⟩ := y
  obtain rfl : sign = sign' := hsign
  obtain rfl : magnitude = magnitude' := h
  rfl

theorem compare?_eq_some_eq :
    x.compare? y = some .eq ↔ x.isNaN = false ∧ y.isNaN = false ∧ x.place = y.place := by
  unfold compare?
  cases x.isNaN <;> cases y.isNaN <;> simp

theorem sameNumber_iff :
    x.sameNumber y = true ↔ x.isNaN = false ∧ y.isNaN = false ∧ x.place = y.place := by
  rw [sameNumber, beq_iff_eq, compare?_eq_some_eq]

theorem sameNumber_comm (x y : Binary64) : x.sameNumber y = y.sameNumber x := by
  rw [Bool.eq_iff_iff, sameNumber_iff, sameNumber_iff, and_left_comm, @eq_comm _ x.place]

end TypedTables.Binary64
