import TypedTables.Proofs.Row.Admission
import TypedTables.Proofs.Schema.Definitions
import TypedTables.Table

/-!
# Soundness of tables

A table is sound (`Table.Sound`) if its schema is valid and its columns are those of the schema, each
with a slot for every row and nothing in it but what its definition admits. A sound table has room
for every encoded row, so a row is taken in as a whole or not at all, and the table is sound again.
-/

namespace TypedTables

variable {config : Config}

/-! ## Columns of a schema -/

/-- The columns are those of the definitions, in order, with this many slots. -/
abbrev ColumnsFit (ds : List ColumnDecl) (rows : Nat) (cs : List Column) : Prop :=
  List.Forall₂ (fun d c => c.Fits d rows) ds cs

abbrev ReadsAs (cs : List Column) (i : Nat) (row : Row) : Prop :=
  List.Forall₂ (fun c v => c.get? i = some v) cs row

variable {ds : List ColumnDecl} {n : Nat} {cs : List Column} {row : Row}

abbrev SameBut (n : Nat) (cs cs' : List Column) : Prop :=
  List.Forall₂ (fun c c' => ∀ i, i ≠ n → c'.get? i = c.get? i) cs cs'

theorem columnsFit_new (ds : List ColumnDecl) :
    ColumnsFit ds 0 (ds.map fun d => .new d.name d.type) := by
  rw [ColumnsFit, List.forall₂_map_right_iff, List.forall₂_same]
  exact fun d _ => Column.fits_new d

theorem ColumnsFit.exists_row (h : ColumnsFit ds n cs) {i : Nat} (hi : i < n) :
    ∃ row, ReadsAs cs i row ∧ List.Forall₂ ColumnDecl.Admits ds row := by
  induction h with
  | nil => exact ⟨[], .nil, .nil⟩
  | cons hc _ ih =>
    obtain ⟨v, hv, hadmits⟩ := hc.exists_get? hi
    obtain ⟨vs, hvs, hall⟩ := ih
    exact ⟨v :: vs, .cons hv hvs, .cons hadmits hall⟩

theorem ColumnsFit.level (h : ColumnsFit ds n cs) :
    ∀ c ∈ cs, c.empties.size = n ∧ c.store.size = n := by
  induction h with
  | nil => simp
  | cons hc _ ih => exact List.forall_mem_cons.mpr ⟨⟨hc.mask, hc.contents⟩, ih⟩

theorem SameBut.readsAs {cs' : List Column} (h : SameBut n cs cs') {i : Nat} (hi : i ≠ n)
    (hread : ReadsAs cs i row) : ReadsAs cs' i row := by
  induction h generalizing row with
  | nil => exact hread
  | cons hc _ ih =>
    cases hread with
    | cons hv hvs => exact .cons ((hc i hi).trans hv) (ih hvs)

namespace Table

/-! ## Writing a row -/

theorem checkRow_eq_ok (h : ColumnsFit ds n cs) (hrow : List.Forall₂ ColumnDecl.Admits ds row) :
    checkRow cs row = .ok () := by
  induction h generalizing row with
  | nil => cases row <;> rfl
  | cons hc _ ih =>
    cases hrow with
    | cons hv hvs => rw [checkRow, if_pos (hc.accepts hv), ih hvs]

/-- Every column takes its value of the row, which lies behind the values that were there. -/
theorem pushRow_eq_ok (h : ColumnsFit ds n cs) (hrow : List.Forall₂ ColumnDecl.Admits ds row) :
    ∃ cs', pushRow cs row = (cs', .ok ()) ∧ ColumnsFit ds (n + 1) cs' ∧ ReadsAs cs' n row ∧
      SameBut n cs cs' := by
  induction h generalizing row with
  | nil =>
    cases hrow
    exact ⟨[], rfl, .nil, .nil, .nil⟩
  | cons hc _ ih =>
    cases hrow with
    | cons hv hvs =>
      obtain ⟨c', hpush, hfits, hget⟩ := hc.push hv
      obtain ⟨cs', hpushes, hcs, hread, hold⟩ := ih hvs
      refine ⟨c' :: cs', ?_, .cons hfits hcs, .cons ?_ hread, .cons (fun i hi => ?_) hold⟩
      · simp only [pushRow, hpush, hpushes]
      · rw [hget, if_pos rfl]
      · rw [hget, if_neg hi]

/-! ## Sound tables -/

/-- What every table is that comes of a checked schema and rows taken in. -/
structure Sound (config : Config) (t : Table) : Prop where
  schema : t.schema.Valid config
  columns : ColumnsFit t.schema.columns t.rowCount t.columns

variable {t : Table} {input : RowInput}

theorem sound_new {s : Schema} (h : s.Valid config) (name : String) (formats : Formats Pattern) :
    (new name s formats).Sound config :=
  ⟨h, columnsFit_new s.columns⟩

theorem row?_eq_some {i : Nat} (hi : i < t.rowCount) :
    t.row? i = some row ↔ ReadsAs t.columns i row := by
  rw [row?, if_pos hi, Outcome.mapM_eq_some]

theorem row?_eq_none {i : Nat} (hi : t.rowCount ≤ i) : t.row? i = none :=
  if_neg (by omega)

theorem Sound.exists_row? (h : t.Sound config) {i : Nat} (hi : i < t.rowCount) :
    ∃ row, t.row? i = some row ∧ t.schema.Admits row := by
  obtain ⟨row, hread, hadmits⟩ := h.columns.exists_row hi
  exact ⟨row, (row?_eq_some hi).mpr hread, hadmits⟩

theorem Sound.admits_of_mem_rows (h : t.Sound config) (hrow : row ∈ t.rows) :
    t.schema.Admits row := by
  obtain ⟨i, hi, hrow⟩ := List.mem_filterMap.mp hrow
  obtain ⟨row', hrow', hadmits⟩ := h.exists_row? (List.mem_range.mp hi)
  rw [hrow'] at hrow
  cases hrow
  exact hadmits

theorem Sound.rows_spec (h : t.Sound config) :
    t.rows.length = t.rowCount ∧ ∀ i, t.rows[i]? = t.row? i := by
  have hrows : t.rows = (List.range t.rowCount).map fun i => (t.row? i).getD [] := by
    rw [rows, ← List.filterMap_eq_map]
    refine List.filterMap_congr fun i hi => ?_
    obtain ⟨row, hrow, -⟩ := h.exists_row? (List.mem_range.mp hi)
    simp [hrow]
  refine ⟨by simp [hrows], fun i => ?_⟩
  rw [hrows, List.getElem?_map]
  rcases Nat.lt_or_ge i t.rowCount with hi | hi
  · obtain ⟨row, hrow, -⟩ := h.exists_row? hi
    rw [List.getElem?_range hi, hrow]
    simp [hrow]
  · rw [List.getElem?_eq_none (by simpa using hi), row?_eq_none hi]
    rfl

theorem Sound.admits_of_encode (h : t.Sound config)
    (hrow : input.encode t.formats t.schema t.columns = .ok row) : t.schema.Admits row :=
  RowInput.encode_eq_ok h.schema h.columns.length_eq.symm hrow

/-- The second table has the rows of the first and one row more, behind them. -/
structure Extends (t t' : Table) (row : Row) : Prop where
  schema : t'.schema = t.schema
  rowCount : t'.rowCount = t.rowCount + 1
  old : ∀ i < t.rowCount, t'.row? i = t.row? i
  new : t'.row? t.rowCount = some row

/-- A sound table has room for what the definitions admit, and is sound with it. -/
theorem Sound.append (h : t.Sound config) (hrow : t.schema.Admits row) :
    ∃ t', t.append row = (t', .ok ()) ∧ t'.Sound config ∧ t.Extends t' row := by
  obtain ⟨cs', hpush, hfits, hread, hsame⟩ := pushRow_eq_ok h.columns hrow
  refine ⟨{ t with columns := cs', rowCount := t.rowCount + 1 }, ?_, ⟨h.schema, hfits⟩,
    rfl, rfl, fun i hi => ?_, ?_⟩
  · simp only [Table.append, hpush]
  · obtain ⟨old, hold, -⟩ := h.exists_row? hi
    have hread := hsame.readsAs (Nat.ne_of_lt hi) ((row?_eq_some hi).mp hold)
    rw [hold, row?_eq_some (Nat.lt_succ_of_lt hi)]
    exact hread
  · exact (row?_eq_some (Nat.lt_succ_self _)).mpr hread

/-- A row is refused only where it is encoded, and then the table stays as it is. -/
theorem insert_of_encode_error {e : RowError}
    (h : input.encode t.formats t.schema t.columns = .error e) :
    t.insert input = (t, .error e) := by
  simp only [Table.insert, h]

theorem Sound.insert_of_encode (h : t.Sound config)
    (hrow : input.encode t.formats t.schema t.columns = .ok row) :
    ∃ t', t.insert input = (t', .ok ()) ∧ t'.Sound config ∧ t.Extends t' row := by
  have hadmits := h.admits_of_encode hrow
  obtain ⟨t', happend, hsound, hextends⟩ := h.append hadmits
  refine ⟨t', ?_, hsound, hextends⟩
  simp only [Table.insert, hrow, checkRow_eq_ok h.columns hadmits, happend]

theorem Sound.insert (h : t.Sound config) (input : RowInput) : (t.insert input).1.Sound config := by
  cases hrow : input.encode t.formats t.schema t.columns with
  | error e => rwa [insert_of_encode_error hrow]
  | ok row =>
    obtain ⟨t', hinsert, hsound, -⟩ := h.insert_of_encode hrow
    rwa [hinsert]

/-! ## Reachable tables -/

/-- The tables that are made of a checked schema and get rows offered, one after the other. -/
inductive Reachable (config : Config) : Table → Prop where
  | new {s : Schema} (h : s.Checked config) (name : String) (formats : Formats Pattern) :
    Reachable config (new name s formats)
  | insert {t : Table} (h : Reachable config t) (input : RowInput) :
    Reachable config (t.insert input).1

theorem Reachable.sound (h : t.Reachable config) : t.Sound config := by
  induction h with
  | new hs name formats => exact sound_new hs.valid name formats
  | insert _ input ih => exact ih.insert input

/-! ## Insertion -/

/-- What a table is after a row has been offered: the same as before if the row is refused, and
otherwise one row longer. Columns are written only if all of them take their value. -/
structure Takes (t : Table) (input : RowInput) : Prop where
  refused : ∀ e, (t.insert input).2 = .error e → (t.insert input).1 = t
  taken : (t.insert input).2 = .ok () →
    ∃ row, input.encode t.formats t.schema t.columns = .ok row ∧ t.Extends (t.insert input).1 row
  writes : ∀ row, input.encode t.formats t.schema t.columns = .ok row →
    checkRow t.columns row = .ok () ∧ (pushRow t.columns row).2 = .ok ()
  level : ∀ c ∈ (t.insert input).1.columns,
    c.empties.size = (t.insert input).1.rowCount ∧ c.store.size = (t.insert input).1.rowCount

theorem Sound.takes (h : t.Sound config) (input : RowInput) : t.Takes input where
  refused e he := by
    cases hrow : input.encode t.formats t.schema t.columns with
    | error e => rw [insert_of_encode_error hrow]
    | ok row =>
      obtain ⟨t', hinsert, -⟩ := h.insert_of_encode hrow
      rw [hinsert] at he
      cases he
  taken hok := by
    cases hrow : input.encode t.formats t.schema t.columns with
    | error e =>
      rw [insert_of_encode_error hrow] at hok
      cases hok
    | ok row =>
      obtain ⟨t', hinsert, -, hextends⟩ := h.insert_of_encode hrow
      exact ⟨row, rfl, by rwa [hinsert]⟩
  writes row hrow := by
    have hadmits := h.admits_of_encode hrow
    obtain ⟨cs', hpush, -⟩ := pushRow_eq_ok h.columns hadmits
    exact ⟨checkRow_eq_ok h.columns hadmits, by rw [hpush]⟩
  level := (h.insert input).columns.level

end Table

end TypedTables
