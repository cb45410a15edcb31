import TypedTables.Proofs.Column.Slots
import TypedTables.Table

/-!
# Pushed values

Values are pushed onto a column one after the other. The column takes a value or refuses it, and one that
refuses stays as it is; in the end it reads as the list of the values that it took (`Column.ReadsAs`). The
empty ones are those that the mask marks, so no placeholder is read.
-/

namespace TypedTables.Column

/-- Pushes values, each onto the column that the one before it left. Gives the column that is there then
and the values that were taken. -/
def pushAll (c : Column) : List Value → Column × List Value
  | [] => (c, [])
  | v :: vs =>
    match c.push v with
    | .ok c' => ((c'.pushAll vs).1, v :: (c'.pushAll vs).2)
    | .error _ => c.pushAll vs

/-- The column has a slot for each of the values, and each slot reads as its value. The mask marks the
empty ones. -/
structure ReadsAs (c : Column) (vs : List Value) : Prop extends c.Aligned where
  size_eq : c.size = vs.length
  slots : ∀ i, c.get? i = vs[i]?
  mask : c.empties.toList = vs.map Value.isNull

variable {c c' : Column} {v : Value} {e : RowError} {vs : List Value}

/-! ## One push -/

theorem push_of_not_accepts (h : c.accepts v = false) : c.push v = .error (c.mismatch v) := by
  have hnull : v.isNull = false := by
    cases v with
    | null => cases h
    | _ => rfl
  rw [push, if_neg (by simp [hnull]), if_pos (by simp [h])]

theorem empties_of_push (h : c.push v = .ok c') : c'.empties = c.empties.push v.isNull := by
  unfold push at h
  split at h
  · next hnull =>
    cases h
    rw [hnull]
  · next hnull =>
    rw [Bool.eq_false_iff.mpr hnull]
    split at h
    · cases h
    · split at h
      · cases h
        rfl
      · cases h

/-- A refused value is not of the type of the column, and in a row it leaves this column and those after it
as they are. -/
theorem Aligned.push_eq_error (h : c.Aligned) (hpush : c.push v = .error e) :
    c.accepts v = false ∧ e = c.mismatch v ∧
      ∀ cs row, Table.pushRow (c :: cs) (v :: row) = (c :: cs, .error e) := by
  have hv : c.accepts v = false := by
    refine Bool.eq_false_iff.mpr fun hv => ?_
    obtain ⟨c', hc', -⟩ := h.push hv
    rw [hpush] at hc'
    cases hc'
  have he := push_of_not_accepts hv
  rw [hpush] at he
  cases he
  exact ⟨hv, rfl, fun cs row => by rw [Table.pushRow, hpush]⟩

theorem readsAs_new (name : String) (type : ColumnType) : (new name type).ReadsAs [] where
  toAligned := aligned_new name type
  size_eq := rfl
  slots i := get?_eq_none (Nat.zero_le i)
  mask := rfl

theorem ReadsAs.push (h : c.ReadsAs vs) (hv : c.accepts v = true) :
    ∃ c', c.push v = .ok c' ∧ c'.ReadsAs (vs ++ [v]) ∧ c'.name = c.name ∧ c'.type = c.type := by
  obtain ⟨c', hpush, haligned, hname, htype, hsize, hget⟩ := h.toAligned.push hv
  refine ⟨c', hpush, ⟨haligned, ?_, fun i => ?_, ?_⟩, hname, htype⟩
  · rw [hsize, h.size_eq, List.length_append, List.length_singleton]
  · rw [hget, h.slots, h.size_eq]
    rcases Nat.lt_trichotomy i vs.length with hi | rfl | hi
    · rw [if_neg (Nat.ne_of_lt hi), List.getElem?_append_left hi]
    · rw [if_pos rfl, List.getElem?_concat_length]
    · have hlen : (vs ++ [v]).length ≤ i := by
        rw [List.length_append, List.length_singleton]
        exact hi
      rw [if_neg (Nat.ne_of_gt hi), List.getElem?_eq_none (Nat.le_of_lt hi), List.getElem?_eq_none hlen]
  · rw [empties_of_push hpush, Array.toList_push, h.mask, List.map_append, List.map_singleton]

/-! ## What is read -/

theorem ReadsAs.last?_eq (h : c.ReadsAs vs) : c.last? = vs.getLast? := by
  rw [last?, h.size_eq, h.slots, List.getLast?_eq_getElem?]
  split
  · next hlen => rw [List.length_eq_zero_iff.mp hlen, List.getElem?_nil]
  · rfl

theorem filterMap_getElem?_range {α : Type} (xs : List α) :
    (List.range xs.length).filterMap (xs[·]?) = xs := by
  induction xs with
  | nil => rfl
  | cons x xs ih =>
    rw [List.length_cons, List.range_succ_eq_map, List.filterMap_cons_some List.getElem?_cons_zero,
      List.filterMap_map]
    exact congrArg (x :: ·) ih

theorem ReadsAs.toList_eq (h : c.ReadsAs vs) : c.toList = vs := by
  have hget : c.get? = (vs[·]?) := funext h.slots
  rw [toList, h.size_eq, hget, filterMap_getElem?_range]

/-! ## Runs of pushes -/

theorem pushAll_cons_ok (h : c.push v = .ok c') :
    c.pushAll (v :: vs) = ((c'.pushAll vs).1, v :: (c'.pushAll vs).2) := by
  rw [pushAll, h]

theorem pushAll_cons_error (h : c.push v = .error e) : c.pushAll (v :: vs) = c.pushAll vs := by
  rw [pushAll, h]

theorem ReadsAs.pushAll {ws : List Value} (h : c.ReadsAs ws) (vs : List Value) :
    (c.pushAll vs).1.ReadsAs (ws ++ (c.pushAll vs).2) ∧
      (c.pushAll vs).1.name = c.name ∧ (c.pushAll vs).1.type = c.type ∧
      (c.pushAll vs).2 = vs.filter c.accepts := by
  induction vs generalizing c ws with
  | nil =>
    rw [Column.pushAll, List.append_nil]
    exact ⟨h, rfl, rfl, rfl⟩
  | cons v vs ih =>
    cases hv : c.accepts v with
    | true =>
      obtain ⟨c', hpush, hreads, hname, htype⟩ := h.push hv
      obtain ⟨hall, hname', htype', htaken⟩ := ih hreads
      have haccepts : c'.accepts = c.accepts := by
        funext w
        rw [accepts, accepts, htype]
      rw [pushAll_cons_ok hpush, List.filter_cons_of_pos hv, ← haccepts, ← htaken]
      rw [List.append_assoc, List.singleton_append] at hall
      exact ⟨hall, hname'.trans hname, htype'.trans htype, rfl⟩
    | false =>
      rw [pushAll_cons_error (push_of_not_accepts hv), List.filter_cons_of_neg (by simp [hv])]
      exact ih h

/-- A column onto which values have been pushed reads as those that it took: as many, in this order, each as
what it is. It refuses the values that are neither null nor of its type, and is not changed by them. -/
theorem readsAs_pushAll (name : String) (type : ColumnType) (vs : List Value) :
    let c := ((new name type).pushAll vs).1
    let taken := ((new name type).pushAll vs).2
    taken = vs.filter (fun v => v = .null ∨ v.columnType? = some type) ∧
      c.ReadsAs taken ∧ c.toList = taken ∧ c.last? = taken.getLast? ∧
      (∀ v, (∃ e, c.push v = .error e) ↔ v ≠ .null ∧ v.columnType? ≠ some type) ∧
      ∀ v e, c.push v = .error e → e = .typeMismatch name type v.display ∧
        ∀ cs row, Table.pushRow (c :: cs) (v :: row) = (c :: cs, .error e) := by
  intro c taken
  obtain ⟨hreads, hname, htype, htaken⟩ := (readsAs_new name type).pushAll vs
  rw [List.nil_append] at hreads
  have hfilter : (new name type).accepts = fun v => decide (v = .null ∨ v.columnType? = some type) := by
    funext v
    rw [Bool.eq_iff_iff, accepts_iff, decide_eq_true_iff]
    rfl
  refine ⟨htaken.trans (congrArg vs.filter hfilter), hreads, hreads.toList_eq, hreads.last?_eq,
    fun v => ?_, fun v e he => ?_⟩
  · have haccepts : c.accepts v = false ↔ v ≠ .null ∧ v.columnType? ≠ some type := by
      rw [← Bool.not_eq_true, accepts_iff, not_or, htype]
      rfl
    rw [← haccepts]
    refine ⟨?_, fun hv => ⟨_, push_of_not_accepts hv⟩⟩
    rintro ⟨e, he⟩
    exact (hreads.push_eq_error he).1
  · obtain ⟨-, rfl, hrow⟩ := hreads.push_eq_error he
    refine ⟨?_, hrow⟩
    rw [mismatch, hname, htype]
    rfl

end TypedTables.Column
