import TypedTables.Proofs.Column.Contents
import TypedTables.Proofs.Database.Runs
import TypedTables.Proofs.Table.Refusals

/-!
# Unique columns

No two rows of a table have the same value in a unique column (`Table.DistinctIn`), and a row is
refused for such a column just if its value is there already. Numbers are the same as numbers; empty
slots are never the same.
-/

namespace TypedTables

/-! ## Rows refused as duplicates -/

section Encoding

variable {formats : Formats Pattern} {ds : List ColumnDecl} {cs : List Column}
  {raws : List (Option Json)} {vs earlier : Row} {k : Nat} {d : ColumnDecl} {c : Column}
  {raw : Option Json} {v : Value}

theorem ColumnDecl.slotValue_ne_duplicate (d : ColumnDecl) (formats : Formats Pattern) (c : Column)
    (raw : Option Json) (name shown : String) :
    d.slotValue formats c raw ≠ .error (.duplicateValue name shown) := by
  intro h
  cases raw with
  | some raw =>
    simp only [slotValue, readRaw] at h
    repeat' split at h
    all_goals cases h
  | none =>
    simp only [slotValue, successor] at h
    repeat' split at h
    all_goals cases h

theorem ColumnDecl.encodeSlot_eq_duplicate {name shown : String} :
    d.encodeSlot formats c raw = .error (.duplicateValue name shown) ↔
      ∃ v, d.slotValue formats c raw = .ok v ∧ d.unique = true ∧ c.contains v = true ∧
        name = d.name ∧ shown = v.display := by
  unfold encodeSlot
  cases hv : d.slotValue formats c raw with
  | error e =>
    have hne := d.slotValue_ne_duplicate formats c raw name shown
    rw [hv] at hne
    simpa using hne
  | ok v =>
    rw [Outcome.ok_bind]
    by_cases hheld : d.unique = true ∧ c.contains v = true
    · rw [if_pos (by simpa using hheld)]
      constructor
      · intro h
        cases h
        exact ⟨v, rfl, hheld.1, hheld.2, rfl, rfl⟩
      · rintro ⟨w, hw, -, -, rfl, rfl⟩
        cases hw
        rfl
    · rw [if_neg (by simpa using hheld)]
      constructor
      · intro h
        cases h
      · rintro ⟨w, hw, hunique, hcontains, -⟩
        cases hw
        exact absurd ⟨hunique, hcontains⟩ hheld

end Encoding

/-! ## Values in a column -/

namespace Table

variable {config : Config} {t : Table} {input : RowInput} {k : Nat} {d : ColumnDecl} {v : Value}

/-- No two rows have the same value in a column, empty slots aside. -/
def DistinctIn (t : Table) (k : Nat) : Prop :=
  ∀ i j row row' v w, i ≠ j → t.row? i = some row → t.row? j = some row' →
    row[k]? = some v → row'[k]? = some w → v ≠ .null → w ≠ .null → v.same w = false

def HasIn (t : Table) (k : Nat) (v : Value) : Prop :=
  ∃ i row w, t.row? i = some row ∧ row[k]? = some w ∧ w ≠ .null ∧ w.same v = true

/-- The columns before one pass, and the slot of that column is to hold this value. -/
def Offers (t : Table) (input : RowInput) (k : Nat) (v : Value) : Prop :=
  ∃ raws earlier d c raw, input.supplied t.schema = .ok raws ∧
    encodeSlots t.formats (t.schema.columns.take k) (t.columns.take k) (raws.take k) =
      .ok earlier ∧
    t.schema.columns[k]? = some d ∧ t.columns[k]? = some c ∧ raws[k]? = some raw ∧
    d.slotValue t.formats c raw = .ok v

theorem Reachable.same_eq_false (h : t.Reachable config) (hd : t.schema.columns[k]? = some d)
    (hunique : d.unique = true) {i j : Nat} (hij : i < j) {row row' : Row} {v w : Value}
    (hrow : t.row? i = some row) (hrow' : t.row? j = some row') (hv : row[k]? = some v)
    (hw : row'[k]? = some w) (hvnull : v ≠ .null) (hwnull : w ≠ .null) : v.same w = false := by
  obtain ⟨c, raw, hfits, hget, hslot⟩ := h.exists_encodeSlot hd hrow' hw
  obtain ⟨hvalue, hnew⟩ := ColumnDecl.encodeSlot_eq_ok.mp hslot
  have hadmits : d.Admits w :=
    ColumnDecl.admits_of_slotValue (h.sound.schema.columns d (List.mem_of_getElem? hd)).numeric hvalue
  have htype : w.columnType? = some c.type := by
    rw [hfits.type]
    exact hadmits.kind.type.resolve_left hwnull
  by_contra hsame
  have hcontains : c.contains w = true := by
    refine (hfits.aligned.contains_iff htype).mpr ⟨i, v, ?_, hvnull, by simpa using hsame⟩
    rw [hget i hij, hrow, Option.bind_some, hv]
  rw [hnew hunique] at hcontains
  cases hcontains

theorem Reachable.distinctIn (h : t.Reachable config) (hd : t.schema.columns[k]? = some d)
    (hunique : d.unique = true) : t.DistinctIn k := by
  intro i j row row' v w hij hrow hrow' hv hw hvnull hwnull
  rcases Nat.lt_or_gt_of_ne hij with hij | hij
  · exact h.same_eq_false hd hunique hij hrow hrow' hv hw hvnull hwnull
  · rw [Value.same_comm]
    exact h.same_eq_false hd hunique hij hrow' hrow hw hv hwnull hvnull

theorem Sound.contains_iff (h : t.Sound config) (hd : t.schema.columns[k]? = some d) {c : Column}
    (hc : t.columns[k]? = some c) (hadmits : d.Admits v) :
    c.contains v = true ↔ v ≠ .null ∧ t.HasIn k v := by
  obtain ⟨c', hc', hfits, hget⟩ := h.exists_column hd
  obtain rfl : c' = c := Option.some.inj (hc'.symm.trans hc)
  by_cases hnull : v = .null
  · simp [hnull, Column.contains_null]
  · have htype : v.columnType? = some c'.type := by
      rw [hfits.type]
      exact hadmits.kind.type.resolve_left hnull
    rw [hfits.aligned.contains_iff htype]
    constructor
    · rintro ⟨i, w, hw, hwnull, hsame⟩
      rw [hget, Option.bind_eq_some_iff] at hw
      obtain ⟨row, hrow, hw⟩ := hw
      exact ⟨hnull, i, row, w, hrow, hw, hwnull, hsame⟩
    · rintro ⟨-, i, row, w, hrow, hw, hwnull, hsame⟩
      refine ⟨i, w, ?_, hwnull, hsame⟩
      rw [hget, hrow, Option.bind_some, hw]

/-- A row of which a unique column is reached is refused as a duplicate there just if some row has
the same value already. -/
theorem Sound.insert_eq_duplicate (h : t.Sound config) (hd : t.schema.columns[k]? = some d)
    (hunique : d.unique = true) (hoffers : t.Offers input k v) (shown : String) :
    (t.insert input).2 = .error (.duplicateValue d.name shown) ↔
      shown = v.display ∧ v ≠ .null ∧ t.HasIn k v := by
  obtain ⟨raws, earlier, d', c, raw, hraws, hearlier, hd', hc, hraw, hv⟩ := hoffers
  obtain rfl : d' = d := Option.some.inj (hd'.symm.trans hd)
  have hadmits : d'.Admits v :=
    ColumnDecl.admits_of_slotValue (h.schema.columns d' (List.mem_of_getElem? hd)).numeric hv
  rw [h.insert_error_iff hd hc rfl, ← h.contains_iff hd hc hadmits]
  constructor
  · rintro ⟨raw', ⟨raws', -, hraws', -, hraw'⟩, hslot⟩
    obtain rfl : raws = raws' := Except.ok.inj (hraws.symm.trans hraws')
    obtain rfl : raw = raw' := Option.some.inj (hraw.symm.trans hraw')
    obtain ⟨w, hw, -, hheld, -, hshown⟩ := ColumnDecl.encodeSlot_eq_duplicate.mp hslot
    obtain rfl : v = w := Except.ok.inj (hv.symm.trans hw)
    exact ⟨hshown, hheld⟩
  · rintro ⟨hshown, hheld⟩
    exact ⟨raw, ⟨raws, earlier, hraws, hearlier, hraw⟩,
      ColumnDecl.encodeSlot_eq_duplicate.mpr ⟨v, hv, hunique, hheld, rfl, hshown⟩⟩

/-! ## Empty slots -/

def insertAll (t : Table) (inputs : List RowInput) : Table :=
  inputs.foldl (fun t input => (t.insert input).1) t

theorem insertAll_replicate_succ (t : Table) (n : Nat) (input : RowInput) :
    t.insertAll (List.replicate (n + 1) input) =
      ((t.insertAll (List.replicate n input)).insert input).1 := by
  simp [insertAll, List.replicate_succ']

theorem Reachable.insertAll (h : t.Reachable config) (inputs : List RowInput) :
    (t.insertAll inputs).Reachable config := by
  induction inputs generalizing t with
  | nil => exact h
  | cons input inputs ih => exact ih (h.insert input)

theorem encodeSlots_replicate_none (formats : Formats Pattern) {ds : List ColumnDecl}
    (h : ∀ d ∈ ds, d.required = false ∧ d.autoincrement = false) {cs : List Column}
    (hcs : cs.length = ds.length) :
    encodeSlots formats ds cs (List.replicate ds.length none) =
      .ok (List.replicate ds.length .null) := by
  induction ds generalizing cs with
  | nil => cases cs <;> rfl
  | cons d ds ih =>
    obtain ⟨c, cs, rfl⟩ := List.exists_cons_of_length_eq_add_one hcs
    obtain ⟨⟨hrequired, hauto⟩, hds⟩ := List.forall_mem_cons.mp h
    have hslot : d.encodeSlot formats c none = .ok .null :=
      ColumnDecl.encodeSlot_eq_ok.mpr
        ⟨by simp [ColumnDecl.slotValue, hrequired, hauto], fun _ => Column.contains_null c⟩
    rw [List.length_cons, List.replicate_succ, encodeSlots, hslot, Outcome.ok_bind,
      ih hds (by simpa using hcs)]
    rfl

def MayBeEmpty (t : Table) : Prop :=
  ∀ d ∈ t.schema.columns, d.required = false ∧ d.autoincrement = false

theorem Sound.insert_nothing (h : t.Sound config) (hempty : t.MayBeEmpty) :
    t.Extends (t.insert (.named [])).1 (List.replicate t.schema.columns.length .null) := by
  have hraws : RowInput.supplied t.schema (.named []) =
      .ok (List.replicate t.schema.columns.length none) := by
    simp [RowInput.supplied, Json.field?, List.map_const']
  have hencode : RowInput.encode t.formats t.schema t.columns (.named []) =
      .ok (List.replicate t.schema.columns.length .null) := by
    rw [RowInput.encode, hraws, Outcome.ok_bind]
    exact encodeSlots_replicate_none t.formats hempty h.columns.length_eq.symm
  obtain ⟨t', hinsert, -, hextends⟩ := h.insert_of_encode hencode
  rwa [hinsert]

theorem Reachable.insertAll_nothing (h : t.Reachable config) (hempty : t.MayBeEmpty) (n : Nat) :
    (t.insertAll (List.replicate n (.named []))).schema = t.schema ∧
    (t.insertAll (List.replicate n (.named []))).rowCount = t.rowCount + n ∧
    ∀ i, t.rowCount ≤ i → i < t.rowCount + n →
      (t.insertAll (List.replicate n (.named []))).row? i =
        some (List.replicate t.schema.columns.length .null) := by
  induction n with
  | zero => exact ⟨rfl, rfl, fun i hi hi' => absurd hi' (by omega)⟩
  | succ n ih =>
    obtain ⟨hschema, hcount, hrows⟩ := ih
    have hreach := h.insertAll (List.replicate n (.named []))
    rw [insertAll_replicate_succ]
    generalize t.insertAll (List.replicate n (.named [])) = u at *
    have hextends := hreach.sound.insert_nothing (fun d hd => hempty d (hschema ▸ hd))
    refine ⟨hextends.schema.trans hschema, by rw [hextends.rowCount, hcount]; omega, ?_⟩
    intro i hi hi'
    rcases Nat.lt_or_ge i u.rowCount with hlt | hge
    · rw [hextends.old i hlt]
      exact hrows i hi (by omega)
    · obtain rfl : i = u.rowCount := by omega
      rw [hextends.new, hschema]

/-! ## Uniqueness -/

/-- What a unique column is for a table: no two rows have the same value in it, a row that is offered
is refused as a duplicate there just if its value is not null and some row has the same, and any
number of rows may be empty. -/
structure KeepsUnique (t : Table) (k : Nat) (d : ColumnDecl) : Prop where
  distinct : t.DistinctIn k
  refused : ∀ input v, t.Offers input k v → ∀ shown,
    (t.insert input).2 = .error (.duplicateValue d.name shown) ↔
      shown = v.display ∧ v ≠ .null ∧ t.HasIn k v
  empty : t.MayBeEmpty → ∀ n,
    (t.insertAll (List.replicate n (.named []))).rowCount = t.rowCount + n ∧
    ∀ i, t.rowCount ≤ i → i < t.rowCount + n →
      ((t.insertAll (List.replicate n (.named []))).row? i).bind (·[k]?) = some .null

theorem keepsUnique_of_reachable (h : t.Reachable config) (hd : t.schema.columns[k]? = some d)
    (hunique : d.unique = true) : t.KeepsUnique k d where
  distinct := h.distinctIn hd hunique
  refused _ _ hoffers := h.sound.insert_eq_duplicate hd hunique hoffers
  empty hempty n := by
    obtain ⟨-, hcount, hrows⟩ := h.insertAll_nothing hempty n
    refine ⟨hcount, fun i hi hi' => ?_⟩
    have hk := (List.getElem?_eq_some_iff.mp hd).1
    rw [hrows i hi hi', Option.bind_some, List.getElem?_replicate, if_pos hk]

/-- Where any text may be read as a number: a zero is there once, whatever its sign, and what is no
number or nothing at all any number of times. -/
theorem keepsUnique_of_reachable_zeros :
    let config : Config :=
      { Config.default with formats := { Config.defaultFormats with number := "" } }
    let d : ColumnDecl := ⟨"x", .number, 8, true, false, false⟩
    ∃ db t, Database.new config = .ok db ∧
      (db.run [.createWith "zeros" [d],
        .insert "zeros" (.positional [.str "0"]), .insert "zeros" (.positional []),
        .insert "zeros" (.positional [.str "NaN"]), .insert "zeros" (.positional [.str "NaN"]),
        .insert "zeros" (.positional [])]).table? "zeros" = some t ∧
      (t.rowCount = 5 ∧ t.schema.columns[0]? = some d ∧
        (t.insert (.positional [.str "-0"])).2 = .error (.duplicateValue "x" "-0")) ∧
      t.KeepsUnique 0 d :=
  Database.exists_table_of_run
    (fun t => decide (t.rowCount = 5 ∧
      t.schema.columns[0]? = some ⟨"x", .number, 8, true, false, false⟩ ∧
      (t.insert (.positional [.str "-0"])).2 = .error (.duplicateValue "x" "-0")))
    (by decide +kernel) fun _ t hdb ht htest => by
      have htest := of_decide_eq_true htest
      have ht := ((Database.governed_new hdb).run _).tables _ t ht
      exact ⟨htest, keepsUnique_of_reachable ht htest.2.1 rfl⟩

end Table

end TypedTables
