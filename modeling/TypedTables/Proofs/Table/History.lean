import TypedTables.Proofs.Table.Soundness

/-!
# How tables come about

Each row of a table was encoded when the table had just the rows before it (`Table.Earlier`). So
what encoding asks of the rows that are there holds between any two rows of the finished table.
-/

namespace TypedTables

/-! ## Encoding, column by column -/

section Encoding

variable {formats : Formats Pattern} {ds : List ColumnDecl} {cs : List Column}
  {raws : List (Option Json)} {vs : Row} {k : Nat} {d : ColumnDecl} {v : Value}

theorem ColumnDecl.encodeSlot_eq_ok {column : Column} {raw : Option Json} :
    d.encodeSlot formats column raw = .ok v ↔
      d.slotValue formats column raw = .ok v ∧ (d.unique = true → column.contains v = false) := by
  unfold encodeSlot
  rw [Outcome.bind_eq_ok]
  constructor
  · rintro ⟨w, hw, h⟩
    split at h
    · cases h
    · next hnew =>
      cases h
      exact ⟨hw, fun hunique => by simpa [hunique] using hnew⟩
  · rintro ⟨hv, hnew⟩
    refine ⟨v, hv, ?_⟩
    rw [if_neg]
    · rfl
    · simpa using hnew

theorem encodeSlots_getElem? (h : encodeSlots formats ds cs raws = .ok vs) (hd : ds[k]? = some d)
    (hv : vs[k]? = some v) :
    ∃ c raw, cs[k]? = some c ∧ raws[k]? = some raw ∧ d.encodeSlot formats c raw = .ok v := by
  induction ds generalizing cs raws vs k with
  | nil => simp at hd
  | cons d' ds ih =>
    cases cs with
    | nil =>
      cases h
      simp at hv
    | cons c cs =>
      cases raws with
      | nil =>
        cases h
        simp at hv
      | cons raw raws =>
        obtain ⟨v', hv', h⟩ := Outcome.bind_eq_ok.mp h
        obtain ⟨vs', hvs', h⟩ := Outcome.bind_eq_ok.mp h
        cases h
        cases k with
        | zero =>
          cases hd
          cases hv
          exact ⟨c, raw, rfl, rfl, hv'⟩
        | succ k =>
          rw [List.getElem?_cons_succ] at hd hv
          simp only [List.getElem?_cons_succ]
          exact ih hvs' hd hv

end Encoding

namespace Table

variable {config : Config} {t t₀ : Table} {input : RowInput} {row : Row} {i k : Nat}

/-! ## Columns and rows -/

/-- The slots of a column are the values of the rows in its place. -/
theorem Sound.exists_column (h : t.Sound config) {d : ColumnDecl}
    (hd : t.schema.columns[k]? = some d) :
    ∃ c, t.columns[k]? = some c ∧ c.Fits d t.rowCount ∧
      ∀ i, c.get? i = (t.row? i).bind (·[k]?) := by
  obtain ⟨hk, hd⟩ := List.getElem?_eq_some_iff.mp hd
  have hk' : k < t.columns.length := h.columns.length_eq ▸ hk
  have hfits : (t.columns[k]).Fits d t.rowCount := by
    have := List.forall₂_iff_get.mp h.columns
    simpa [hd] using this.2 k hk hk'
  refine ⟨t.columns[k], List.getElem?_eq_getElem hk', hfits, fun i => ?_⟩
  rcases Nat.lt_or_ge i t.rowCount with hi | hi
  · obtain ⟨row, hrow, -⟩ := h.exists_row? hi
    have hread := (row?_eq_some hi).mp hrow
    have hrowk : k < row.length := hread.length_eq ▸ hk'
    rw [hrow, Option.bind_some, List.getElem?_eq_getElem hrowk]
    have := List.forall₂_iff_get.mp hread
    simpa using this.2 k hk' hrowk
  · have hmask : (t.columns[k]).size ≤ i := Nat.le_trans (Nat.le_of_eq hfits.mask) hi
    rw [row?_eq_none hi, Column.get?_eq_none hmask]
    rfl

/-! ## Earlier tables -/

theorem formats_insert (t : Table) (input : RowInput) :
    (t.insert input).1.formats = t.formats := by
  have happend : ∀ row, (t.append row).1.formats = t.formats := fun row => by
    cases hpush : pushRow t.columns row with
    | mk cs pushed => cases pushed <;> simp only [Table.append, hpush]
  unfold Table.insert
  split
  · rfl
  · split
    · rfl
    · exact happend _

/-- The second table is the first as it was when it had this many rows. -/
structure Earlier (t : Table) (n : Nat) (t₀ : Table) : Prop where
  schema : t₀.schema = t.schema
  formats : t₀.formats = t.formats
  rowCount : t₀.rowCount = n
  rows : ∀ i < n, t₀.row? i = t.row? i

/-- Each row was encoded when the rows before it were there. -/
theorem Reachable.exists_earlier (h : t.Reachable config) (hrow : t.row? i = some row) :
    ∃ t₀ input, t₀.Reachable config ∧ t.Earlier i t₀ ∧
      RowInput.encode t₀.formats t₀.schema t₀.columns input = .ok row := by
  induction h with
  | new hs name formats => simp [row?, Table.new] at hrow
  | @insert t ht input ih =>
    cases hencode : input.encode t.formats t.schema t.columns with
    | error e =>
      rw [insert_of_encode_error hencode] at hrow ⊢
      exact ih hrow
    | ok new =>
      obtain ⟨t', hinsert, -, hextends⟩ := ht.sound.insert_of_encode hencode
      have hformats : t'.formats = t.formats := by
        have := t.formats_insert input
        rwa [hinsert] at this
      rw [hinsert] at hrow ⊢
      rcases Nat.lt_trichotomy i t.rowCount with hi | rfl | hi
      · rw [hextends.old i hi] at hrow
        obtain ⟨t₀, input₀, hreach, hearlier, hrow₀⟩ := ih hrow
        refine ⟨t₀, input₀, hreach, ⟨?_, ?_, hearlier.rowCount, fun j hj => ?_⟩, hrow₀⟩
        · rw [hearlier.schema, hextends.schema]
        · rw [hearlier.formats, hformats]
        · rw [hearlier.rows j hj, hextends.old j (Nat.lt_trans hj hi)]
      · rw [hextends.new] at hrow
        cases hrow
        refine ⟨t, input, ht, ⟨hextends.schema.symm, hformats.symm, rfl, fun j hj => ?_⟩, hencode⟩
        exact (hextends.old j hj).symm
      · rw [row?_eq_none (by rw [hextends.rowCount]; omega)] at hrow
        cases hrow

theorem Reachable.exists_encodeSlot (h : t.Reachable config) {d : ColumnDecl} {v : Value}
    (hd : t.schema.columns[k]? = some d) (hrow : t.row? i = some row) (hv : row[k]? = some v) :
    ∃ c raw, c.Fits d i ∧ (∀ j < i, c.get? j = (t.row? j).bind (·[k]?)) ∧
      d.encodeSlot t.formats c raw = .ok v := by
  obtain ⟨t₀, input, hreach, hearlier, hencode⟩ := h.exists_earlier hrow
  obtain ⟨raws, -, hslots⟩ := Outcome.bind_eq_ok.mp hencode
  rw [hearlier.schema, hearlier.formats] at hslots
  obtain ⟨c, raw, hc, -, hslot⟩ := encodeSlots_getElem? hslots hd hv
  rw [← hearlier.schema] at hd
  obtain ⟨c', hc', hfits, hget⟩ := hreach.sound.exists_column hd
  obtain rfl : c' = c := Option.some.inj (hc'.symm.trans hc)
  rw [hearlier.rowCount] at hfits
  refine ⟨c', raw, hfits, fun j hj => ?_, hslot⟩
  rw [hget, hearlier.rows j hj]

end Table

end TypedTables
