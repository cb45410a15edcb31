import TypedTables.Proofs.Binary64.Order
import TypedTables.Proofs.Column.Slots

/-!
# What a column contains

A column is searched in its store, without reading its slots as values. It contains a value of its
type just if one of its slots that is not empty has the same value in it; what lies behind an empty
slot is not found.
-/

namespace TypedTables

theorem Value.same_comm (v w : Value) : v.same w = w.same v := by
  have hother : (v == w) = (w == v) := by
    rw [Bool.eq_iff_iff, beq_iff_eq, beq_iff_eq, eq_comm]
  cases v <;> cases w <;> first | exact Binary64.sameNumber_comm _ _ | exact hother

namespace Column

variable {c : Column} {v : Value}

theorem holds_iff {α : Type} {xs : Array α} {p : α → Bool} :
    c.holds xs p = true ↔
      ∃ (i : Nat) (x : α), xs[i]? = some x ∧ c.empties[i]? = some false ∧ p x = true := by
  unfold holds
  rw [Array.any_eq_true]
  constructor
  · rintro ⟨i, hi, h⟩
    obtain ⟨hx, hempty⟩ : i < xs.size ∧ i < c.empties.size := by
      simpa only [Array.size_zip, Nat.lt_min] using hi
    simp only [Array.getElem_zip, Bool.and_eq_true, Bool.not_eq_true'] at h
    refine ⟨i, xs[i], Array.getElem?_eq_getElem hx, ?_, h.1⟩
    rw [Array.getElem?_eq_getElem hempty, h.2]
  · rintro ⟨i, x, hx, hempty, hp⟩
    obtain ⟨hi, rfl⟩ := Array.getElem?_eq_some_iff.mp hx
    obtain ⟨hi', hempty⟩ := Array.getElem?_eq_some_iff.mp hempty
    have hzip : i < (xs.zip c.empties).size := by
      simpa only [Array.size_zip, Nat.lt_min] using ⟨hi, hi'⟩
    exact ⟨i, hzip, by simp [hp, hempty]⟩

theorem get?_eq_some_iff {i : Nat} (hv : v ≠ .null) :
    c.get? i = some v ↔ c.empties[i]? = some false ∧ c.store.get? c.type i = some v := by
  unfold get?
  rcases c.empties[i]? with _ | (_ | _)
  · simp
  · simp
  · simp [hv.symm]

theorem contains_null (c : Column) : c.contains .null = false := by
  unfold contains
  cases c.store <;> rfl

theorem holds_iff_exists_same {α : Type} {xs : Array α} {f : α → Value} {p : α → Bool}
    (hp : ∀ x, p x = (f x).same v) :
    c.holds xs p = true ↔ ∃ (i : Nat) (w : Value),
      xs[i]?.map f = some w ∧ c.empties[i]? = some false ∧ w.same v = true := by
  simp only [holds_iff, Option.map_eq_some_iff, hp]
  constructor
  · rintro ⟨i, x, hx, hempty, hsame⟩
    exact ⟨i, f x, ⟨x, hx, rfl⟩, hempty, hsame⟩
  · rintro ⟨i, _, ⟨x, hx, rfl⟩, hempty, hsame⟩
    exact ⟨i, x, hx, hempty, hsame⟩

/-- A search in the store is a search among the contents of its slots. -/
theorem contains_iff_store (hs : c.store.Suits c.type) (hv : v.columnType? = some c.type) :
    c.contains v = true ↔ ∃ (i : Nat) (w : Value),
      c.store.get? c.type i = some w ∧ c.empties[i]? = some false ∧ w.same v = true := by
  have hbeq : ∀ {α : Type} [BEq α] [LawfulBEq α] {f : α → Value} (x y : α),
      (∀ a b, f a = f b ↔ a = b) → (x == y) = (f x == f y) := fun x y hf => by
    rw [Bool.eq_iff_iff, beq_iff_eq, beq_iff_eq, hf]
  obtain ⟨name, type, store, empties⟩ := c
  cases store <;> cases type <;> first
    | exact hs.elim
    | cases v <;> cases hv
  all_goals simp only [contains, Store.get?]
  case integers.integer.integer.refl =>
    exact holds_iff_exists_same fun x => hbeq (f := Value.integer) x _ (by simp)
  case numbers.number.number.refl => exact holds_iff_exists_same fun x => rfl
  case texts.text.text.refl =>
    exact holds_iff_exists_same fun x => hbeq (f := Value.text) x _ (by simp)
  case texts.time.time.refl =>
    exact holds_iff_exists_same fun x => hbeq (f := Value.time) x _ (by simp)
  case texts.date.date.refl =>
    exact holds_iff_exists_same fun x => hbeq (f := Value.date) x _ (by simp)
  case booleans.boolean.boolean.refl =>
    exact holds_iff_exists_same fun x => hbeq (f := Value.boolean) x _ (by simp)

theorem Aligned.contains_iff (h : c.Aligned) (hv : v.columnType? = some c.type) :
    c.contains v = true ↔ ∃ i w, c.get? i = some w ∧ w ≠ .null ∧ w.same v = true := by
  rw [contains_iff_store h.store hv]
  constructor
  · rintro ⟨i, w, hget, hempty, hsame⟩
    have hi : i < c.store.size := by
      rw [h.size]
      exact (Array.getElem?_eq_some_iff.mp hempty).1
    obtain ⟨w', hw', htype⟩ := Store.exists_get? h.store hi
    obtain rfl : w' = w := Option.some.inj (hw'.symm.trans hget)
    have hw := Value.ne_null_of_columnType? htype
    exact ⟨i, w', (get?_eq_some_iff hw).mpr ⟨hempty, hget⟩, hw, hsame⟩
  · rintro ⟨i, w, hget, hw, hsame⟩
    obtain ⟨hempty, hget⟩ := (get?_eq_some_iff hw).mp hget
    exact ⟨i, w, hget, hempty, hsame⟩

end Column

end TypedTables
