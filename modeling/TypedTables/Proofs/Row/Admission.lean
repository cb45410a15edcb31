import TypedTables.Proofs.Column.Slots
import TypedTables.Proofs.Schema.Valid
import TypedTables.Row.Encoding

/-!
# Admission of encoded rows

Whatever a row supplies, what it is encoded as has one value for each column, and each is one that
the definition of its column admits.
-/

namespace TypedTables

namespace ColumnDecl

variable {d : ColumnDecl} {formats : Formats Pattern} {column : Column} {v : Value}

/-! ## Values of one column -/

theorem admits_null (h : ¬(d.required = true ∨ d.autoincrement = true)) : d.Admits .null :=
  ⟨Value.isOf_null d.type, fun hd => absurd hd h⟩

theorem admits_of_isOf (h : v.IsOf d.type) (hv : v ≠ .null) : d.Admits v := ⟨h, fun _ => hv⟩

theorem admits_number (h : d.type = .number) (x : Binary64) : d.Admits (.number x) :=
  admits_of_isOf (Value.isOf_of_columnType? (by rw [h]; rfl) (by simp [h]) (by simp [h])) (by simp)

theorem admits_integer (h : d.type = .integer) (i : Int64) : d.Admits (.integer i) :=
  admits_of_isOf (Value.isOf_of_columnType? (by rw [h]; rfl) (by simp [h]) (by simp [h])) (by simp)

theorem columnType?_of_read? {type : ColumnType} {text : String}
    (h : Value.read? type text = some v) : v.columnType? = some type := by
  cases type with
  | text =>
    cases h
    rfl
  | _ =>
    obtain ⟨_, -, rfl⟩ := Option.map_eq_some_iff.mp h
    rfl

/-- What a text denotes is a value of the type, and a time or date is one that can be read. -/
theorem isOf_of_read? {type : ColumnType} {text : String} (h : Value.read? type text = some v) :
    v.IsOf type := by
  have htype := columnType?_of_read? h
  cases type with
  | time =>
    obtain ⟨t, ht, rfl⟩ := Option.map_eq_some_iff.mp h
    refine ⟨.inr rfl, fun s hs => ?_, by simp⟩
    cases hs
    exact ⟨t, ht⟩
  | date =>
    obtain ⟨t, ht, rfl⟩ := Option.map_eq_some_iff.mp h
    refine ⟨.inr rfl, by simp, fun s hs => ?_⟩
    cases hs
    exact ⟨t, ht⟩
  | _ => exact Value.isOf_of_columnType? htype (by simp) (by simp)

theorem admits_of_readRaw {raw : Json} (h : d.readRaw formats raw = .ok v) : d.Admits v := by
  unfold readRaw at h
  split at h
  · cases h
  · split at h
    · cases h
    · split at h
      · cases h
      · split at h
        · next hread =>
          cases h
          have hfilled := Value.ne_null_of_columnType? (columnType?_of_read? hread)
          exact admits_of_isOf (isOf_of_read? hread) hfilled
        · cases h

theorem admits_of_successor (hd : d.type = .number ∨ d.type = .integer)
    (h : d.successor column = .ok v) : d.Admits v := by
  unfold successor at h
  split at h
  · next htype _ =>
    dsimp only at h
    split at h
    · cases h
    · cases h
      exact admits_number htype _
  · next htype _ =>
    cases h
    exact admits_number htype _
  · next htype =>
    have htype : d.type = .integer := hd.resolve_left ‹_›
    split at h
    · cases h
      exact admits_integer htype _
    · cases h
  · next htype _ =>
    cases h
    exact admits_integer (hd.resolve_left ‹_›) _

variable (hd : d.autoincrement = true → d.type = .number ∨ d.type = .integer)
include hd

theorem admits_of_slotValue {raw : Option Json} (h : d.slotValue formats column raw = .ok v) :
    d.Admits v := by
  cases raw with
  | some raw => exact admits_of_readRaw h
  | none =>
    simp only [slotValue] at h
    split at h
    · cases h
    · next hrequired =>
      split at h
      · next hauto => exact admits_of_successor (hd hauto) h
      · next hauto =>
        cases h
        exact admits_null (by simp [hrequired, hauto])

theorem admits_of_encodeSlot {raw : Option Json} (h : d.encodeSlot formats column raw = .ok v) :
    d.Admits v := by
  obtain ⟨w, hw, h⟩ := Outcome.bind_eq_ok.mp h
  split at h
  · cases h
  · cases h
    exact admits_of_slotValue hd hw

end ColumnDecl

/-! ## Rows -/

variable {config : Config} {s : Schema} {formats : Formats Pattern} {columns : List Column}
  {input : RowInput} {row : Row}

theorem encodeSlots_eq_ok {ds : List ColumnDecl} (hd : ∀ d ∈ ds, d.Valid config) :
    ∀ {cs : List Column} {raws : List (Option Json)} {vs : Row},
      cs.length = ds.length → raws.length = ds.length →
      encodeSlots formats ds cs raws = .ok vs → List.Forall₂ ColumnDecl.Admits ds vs := by
  induction ds with
  | nil =>
    intro cs raws vs _ _ h
    unfold encodeSlots at h
    cases h
    exact .nil
  | cons d ds ih =>
    intro cs raws vs hcs hraws h
    obtain ⟨c, cs, rfl⟩ := List.exists_cons_of_length_eq_add_one hcs
    obtain ⟨raw, raws, rfl⟩ := List.exists_cons_of_length_eq_add_one hraws
    obtain ⟨v, hv, h⟩ := Outcome.bind_eq_ok.mp h
    obtain ⟨rest, hrest, h⟩ := Outcome.bind_eq_ok.mp h
    cases h
    have hvalid := List.forall_mem_cons.mp hd
    refine .cons (ColumnDecl.admits_of_encodeSlot hvalid.1.numeric hv) ?_
    exact ih hvalid.2 (by simpa using hcs) (by simpa using hraws) hrest

theorem RowInput.length_supplied {raws : List (Option Json)} (h : input.supplied s = .ok raws) :
    raws.length = s.columns.length := by
  unfold supplied at h
  split at h
  · split at h
    · cases h
    · cases h
      simp
  · split at h
    · cases h
    · cases h
      simp [Schema.size]

theorem RowInput.encode_eq_ok (hs : s.Valid config) (hcolumns : columns.length = s.columns.length)
    (h : input.encode formats s columns = .ok row) : s.Admits row := by
  obtain ⟨raws, hraws, h⟩ := Outcome.bind_eq_ok.mp h
  exact encodeSlots_eq_ok hs.columns hcolumns (length_supplied hraws) h

end TypedTables
