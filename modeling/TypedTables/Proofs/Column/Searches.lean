import TypedTables.Proofs.Column.Contents
import TypedTables.Proofs.Column.Pushes

/-!
# Searches for any value

A search looks at contents only, so that a text, a time and a date are not told apart. Whatever the type of
the value, it is found just if one of the slots that are not empty has the same content
(`Value.SameContent`). This is the same value, except where the column holds texts and the value is a text
of another type.
-/

namespace TypedTables

namespace Value

/-- The values are the same, or each of them is a text, a time or a date, and the text is the same. -/
def SameContent (v w : Value) : Prop :=
  v.same w = true ∨ ∃ s, v.text? = some s ∧ w.text? = some s

variable {v w : Value} {s : String}

theorem columnType?_of_same (h : v.same w = true) : v.columnType? = w.columnType? := by
  cases v <;> cases w <;> first | rfl | exact absurd (beq_iff_eq.mp h) (by simp)

theorem text?_of_same (hw : w.text? = some s) (h : v.same w = true) : v.text? = some s := by
  have heq : v = w := by
    cases w <;> first | (cases v <;> exact beq_iff_eq.mp h) | cases hw
  rw [heq, hw]

theorem same_of_text? (htype : v.columnType? = w.columnType?) (hv : v.text? = some s)
    (hw : w.text? = some s) : v.same w = true := by
  cases v <;> cases hv <;> cases w <;> cases hw <;> first | cases htype; done | exact beq_self_eq_true _

theorem sameContent_iff_same (htype : v.columnType? = w.columnType?) :
    v.SameContent w ↔ v.same w = true := by
  refine ⟨?_, .inl⟩
  rintro (hsame | ⟨s, hv, hw⟩)
  · exact hsame
  · exact same_of_text? htype hv hw

theorem sameContent_iff_same_of_text? (hw : w.text? = none) : v.SameContent w ↔ v.same w = true := by
  refine ⟨?_, .inl⟩
  rintro (hsame | ⟨s, -, hs⟩)
  · exact hsame
  · rw [hw] at hs
    cases hs

theorem sameContent_iff_text? (hw : w.text? = some s) : v.SameContent w ↔ v.text? = some s := by
  constructor
  · rintro (hsame | ⟨s', hv, hw'⟩)
    · exact text?_of_same hw hsame
    · rwa [Option.some.inj (hw.symm.trans hw')]
  · exact fun hv => .inr ⟨s, hv, hw⟩

end Value

namespace Column

variable {c : Column} {v w : Value} {s : String}

theorem contains_of_text? (c : Column) (hv : v.text? = some s) (hw : w.text? = some s) :
    c.contains v = c.contains w := by
  cases v <;> cases hv <;> cases w <;> cases hw <;> unfold contains <;> cases c.store <;> rfl

theorem contains_eq_false (hs : c.store.Suits c.type) (htype : v.columnType? ≠ some c.type)
    (hcontent : ∀ w : Value, w.columnType? = some c.type → ¬w.SameContent v) :
    c.contains v = false := by
  obtain ⟨name, type, store, empties⟩ := c
  -- only where the store has texts and the value is one there is a value to hold against `hcontent`
  cases store <;> cases type <;> first
    | exact hs.elim
    | cases v <;> first
      | rfl
      | exact absurd rfl htype
      | exact absurd (.inr ⟨_, rfl, rfl⟩) (hcontent (.text _) rfl)
      | exact absurd (.inr ⟨_, rfl, rfl⟩) (hcontent (.time _) rfl)
      | exact absurd (.inr ⟨_, rfl, rfl⟩) (hcontent (.date _) rfl)

theorem Aligned.columnType?_of_get? (h : c.Aligned) {i : Nat} (hget : c.get? i = some v) (hv : v ≠ .null) :
    v.columnType? = some c.type := by
  have hi : i < c.size := Nat.lt_of_not_le fun hge => by
    rw [get?_eq_none hge] at hget
    cases hget
  obtain ⟨w, hw, htype⟩ := h.exists_get? hi
  obtain rfl := Option.some.inj (hget.symm.trans hw)
  exact htype.resolve_left hv

theorem Aligned.contains_iff_sameContent (h : c.Aligned) (v : Value) :
    c.contains v = true ↔ ∃ i w, c.get? i = some w ∧ w ≠ .null ∧ w.SameContent v := by
  by_cases hlike : ∃ w : Value, w.columnType? = some c.type ∧ c.contains v = c.contains w ∧
      ∀ u : Value, u.SameContent v ↔ u.SameContent w
  · obtain ⟨w, hw, hcontains, hcontent⟩ := hlike
    rw [hcontains, h.contains_iff hw]
    refine exists_congr fun i => exists_congr fun u => and_congr_right fun hget =>
      and_congr_right fun hu => ?_
    rw [hcontent, Value.sameContent_iff_same ((h.columnType?_of_get? hget hu).trans hw.symm)]
  · have htype : v.columnType? ≠ some c.type := fun hv => hlike ⟨v, hv, rfl, fun _ => Iff.rfl⟩
    have hnone : ∀ w : Value, w.columnType? = some c.type → ¬w.SameContent v := by
      rintro w hw (hsame | ⟨s, hws, hvs⟩)
      · exact htype ((Value.columnType?_of_same hsame).symm.trans hw)
      · refine hlike ⟨w, hw, c.contains_of_text? hvs hws, fun u => ?_⟩
        rw [Value.sameContent_iff_text? hvs, Value.sameContent_iff_text? hws]
    rw [contains_eq_false h.store htype hnone]
    refine iff_of_false Bool.false_ne_true ?_
    rintro ⟨i, w, hget, hw, hcontent⟩
    exact hnone w (h.columnType?_of_get? hget hw) hcontent

/-- A column onto which values have been pushed contains those with the content of a slot that is not
empty. For values of its own type, and for all that are no texts, these are the values in its slots. -/
theorem contains_pushAll (name : String) (type : ColumnType) (vs : List Value) (v : Value) :
    let c := ((new name type).pushAll vs).1
    (c.contains v = true ↔ ∃ i w, c.get? i = some w ∧ w ≠ .null ∧ w.SameContent v) ∧
      (v.columnType? = some type ∨ v.text? = none →
        (c.contains v = true ↔ ∃ i w, c.get? i = some w ∧ w ≠ .null ∧ w.same v = true)) := by
  intro c
  obtain ⟨hreads, -, htype, -⟩ := (readsAs_new name type).pushAll vs
  have hcontains : c.contains v = true ↔ ∃ i w, c.get? i = some w ∧ w ≠ .null ∧ w.SameContent v :=
    hreads.contains_iff_sameContent v
  refine ⟨hcontains, ?_⟩
  rintro (hv | hv)
  · exact hreads.contains_iff (hv.trans (congrArg some htype.symm))
  · rw [hcontains]
    simp only [Value.sameContent_iff_same_of_text? hv]

/-- A column of texts contains a time, though no slot has it. -/
theorem contains_time_in_texts :
    let c := ((new "at" .text).pushAll [.text "08:30"]).1
    c.contains (.time "08:30") = true ∧
      ¬∃ i w, c.get? i = some w ∧ w ≠ .null ∧ w.same (.time "08:30") = true := by
  intro c
  refine ⟨by decide +kernel, ?_⟩
  rintro ⟨i, w, hget, -, hsame⟩
  have hreads := ((readsAs_new "at" .text).pushAll [.text "08:30"]).1
  rw [hreads.slots] at hget
  obtain rfl : w = .text "08:30" := List.mem_singleton.mp (List.mem_of_getElem? hget)
  exact absurd hsame (by decide)

end Column

end TypedTables
