import Mathlib.Data.List.Induction
import TypedTables.Proofs.Json.Fields
import TypedTables.Proofs.Outcome
import TypedTables.Proofs.Schema.Positions
import TypedTables.Proofs.Text.ByteOrder
import TypedTables.Row.Encoding

/-!
# Shapes of rows

A row by name and a row by position that supply the same values for the same columns are encoded alike,
and so is a row by position with nulls behind it (`RowInput.ShapesAgree`). A row by name can be taken
field by field, each value into the slot of its column (`RowInput.fill`): since the names are different,
no field is written over another, and the order of the fields does not matter.
-/

namespace TypedTables

open Json Text

namespace RowInput

variable {s : Schema} {formats : Formats Pattern} {columns : List Column}
  {fields front rest : List (String × Json)} {key : String} {raw : Json} {items : List Json}

theorem encode_congr {a b : RowInput} (h : a.supplied s = b.supplied s) :
    a.encode formats s columns = b.encode formats s columns := by
  rw [encode, encode, h]

theorem encode_error {input : RowInput} {e : RowError} (h : input.supplied s = .error e) :
    input.encode formats s columns = .error e := by
  rw [encode, h]
  rfl

/-! ## Field by field -/

def fillSlot (s : Schema) (slots : List (Option Json)) (field : String × Json) :
    Except RowError (List (Option Json)) :=
  match s.position? field.1 with
  | some i => .ok (slots.set i (some field.2))
  | none => .error (.unknownKey field.1)

def fill (s : Schema) (fields : List (String × Json)) : Except RowError (List (Option Json)) :=
  fields.foldlM (fillSlot s) (List.replicate s.size none)

/-- What a row by name supplies for each column, null included. -/
def slotsOf (s : Schema) (fields : List (String × Json)) : List (Option Json) :=
  s.columns.map fun d => field? d.name fields

theorem slotsOf_append (raw : Json) (hs : s.names.Nodup) {i : Nat} (hi : s.position? key = some i)
    (hnew : key ∉ front.map Prod.fst) :
    slotsOf s (front ++ [(key, raw)]) = (slotsOf s front).set i (some raw) := by
  refine List.ext_getElem (by simp [slotsOf]) fun j hj _ => ?_
  have hj : j < s.columns.length := by simpa [slotsOf] using hj
  have hposition := Schema.position?_name hs (List.getElem?_eq_getElem hj)
  simp only [slotsOf, List.getElem_set, List.getElem_map, field?_append, field?]
  -- The value goes to the column of its name and, the names being different, to no other.
  by_cases hij : i = j
  · subst hij
    have hname : s.columns[i].name = key := by
      have := Schema.names_getElem?_of_position? hi
      simpa [Schema.names, List.getElem?_eq_getElem hj] using this
    simp [hname, field?_eq_none hnew]
  · have hname : key ≠ s.columns[j].name := by
      rintro rfl
      exact hij (Option.some.inj (hi.symm.trans hposition))
    simp [hij, hname]

theorem fill_eq_ok (hs : s.names.Nodup) (hnodup : (fields.map Prod.fst).Nodup)
    (hknown : ∀ f ∈ fields, f.1 ∈ s.names) : fill s fields = .ok (slotsOf s fields) := by
  -- Fields are written from the front, so the last one finds the slots of those before it.
  induction fields using List.reverseRecOn with
  | nil =>
    have hempty : slotsOf s [] = List.replicate s.size none := List.map_const' ..
    rw [hempty]
    rfl
  | append_singleton front field ih =>
    obtain ⟨key, raw⟩ := field
    rw [List.map_append, List.nodup_append] at hnodup
    obtain ⟨hfront, -, hnew⟩ := hnodup
    have hkey : key ∈ s.names := hknown (key, raw) (by simp)
    obtain ⟨i, hi⟩ := Option.ne_none_iff_exists'.mp fun h => Schema.position?_eq_none_iff.mp h hkey
    have hfill := ih hfront fun f hf => hknown f (List.mem_append_left _ hf)
    have hslots := slotsOf_append raw hs hi fun hmem => hnew key hmem key (by simp) rfl
    rw [fill, List.foldlM_append, ← fill, hfill, Outcome.ok_bind, List.foldlM_cons, fillSlot, hi,
      hslots]
    rfl

theorem fill_eq_error (hs : s.names.Nodup) (hnodup : (front.map Prod.fst).Nodup)
    (hknown : ∀ f ∈ front, f.1 ∈ s.names) (hkey : key ∉ s.names) :
    fill s (front ++ (key, raw) :: rest) = .error (.unknownKey key) := by
  rw [fill, List.foldlM_append, ← fill, fill_eq_ok hs hnodup hknown, Outcome.ok_bind,
    List.foldlM_cons, fillSlot, Schema.position?_eq_none_iff.mpr hkey]
  rfl

/-! ## Rows by name -/

/-- A row by name has columns for all its fields, or a first field that has none. -/
theorem known_or_exists_unknown (s : Schema) (fields : List (String × Json)) :
    (∀ f ∈ fields, f.1 ∈ s.names) ∨ ∃ front key raw rest, fields = front ++ (key, raw) :: rest ∧
      (∀ f ∈ front, f.1 ∈ s.names) ∧ key ∉ s.names := by
  induction fields with
  | nil => exact .inl fun _ h => nomatch h
  | cons field fields ih =>
    by_cases hfield : field.1 ∈ s.names
    · rcases ih with h | ⟨front, key, raw, rest, rfl, hfront, hkey⟩
      · exact .inl (List.forall_mem_cons.mpr ⟨hfield, h⟩)
      · exact .inr ⟨field :: front, key, raw, rest, rfl,
          List.forall_mem_cons.mpr ⟨hfield, hfront⟩, hkey⟩
    · exact .inr ⟨[], field.1, field.2, fields, rfl, by simp, hfield⟩

theorem supplied_named (hknown : ∀ f ∈ fields, f.1 ∈ s.names) :
    (named fields).supplied s = .ok ((slotsOf s fields).map (·.filter (!·.isNull))) := by
  have hfind : fields.find? (fun f => (s.position? f.1).isNone) = none := by
    rw [List.find?_eq_none]
    intro f hf hnone
    exact Schema.position?_eq_none_iff.mp (Option.isNone_iff_eq_none.mp hnone) (hknown f hf)
  rw [supplied]
  split
  · next h => exact nomatch hfind.symm.trans h
  · rw [slotsOf, List.map_map]
    rfl

theorem supplied_unknown (hknown : ∀ f ∈ front, f.1 ∈ s.names) (hkey : key ∉ s.names) :
    (named (front ++ (key, raw) :: rest)).supplied s = .error (.unknownKey key) := by
  have hfind : (front ++ (key, raw) :: rest).find? (fun f => (s.position? f.1).isNone) =
      some (key, raw) := by
    refine List.find?_eq_some_iff_append.mpr ⟨?_, front, rest, rfl, fun f hf => ?_⟩
    · simp [Schema.position?_eq_none_iff.mpr hkey]
    · have hsome : s.position? f.1 ≠ none := fun h =>
        Schema.position?_eq_none_iff.mp h (hknown f hf)
      simpa using Option.isSome_iff_ne_none.mpr hsome
  rw [supplied]
  split
  · next h =>
    have hfirst := Option.some.inj (hfind.symm.trans h)
    cases hfirst
    rfl
  · next h => exact nomatch hfind.symm.trans h

/-- To take a row by name field by field comes to the same. -/
theorem supplied_eq_fill (hs : s.names.Nodup) (hfields : Ordered fields) :
    (named fields).supplied s = (fill s fields).map (·.map (·.filter (!·.isNull))) := by
  rcases known_or_exists_unknown s fields with hknown | ⟨front, key, raw, rest, rfl, hfront, hkey⟩
  · rw [supplied_named hknown, fill_eq_ok hs hfields.nodup hknown]
    rfl
  · have hnodup := hfields.nodup
    rw [List.map_append, List.nodup_append] at hnodup
    rw [supplied_unknown hfront hkey, fill_eq_error hs hnodup.1 hfront hkey]
    rfl

/-! ## Rows by position -/

/-- What a row by position supplies for a column depends on the item there, and null is none. -/
theorem supplied_positional (h : items.length ≤ s.size) :
    (positional items).supplied s =
      .ok ((List.range s.size).map fun i => items[i]?.filter (!·.isNull)) :=
  if_neg (Nat.not_lt.mpr h)

theorem supplied_tooMany (h : s.size < items.length) :
    (positional items).supplied s = .error (.tooManyValues s.size items.length) :=
  if_pos h

theorem supplied_append_null {n : Nat} (h : items.length + n ≤ s.size) :
    (positional (items ++ List.replicate n .null)).supplied s = (positional items).supplied s := by
  have hlength : (items ++ List.replicate n Json.null).length ≤ s.size := by simpa using h
  rw [supplied_positional hlength, supplied_positional (by omega)]
  congr 1
  refine List.map_congr_left fun i _ => ?_
  rcases Nat.lt_or_ge i items.length with hi | hi
  · rw [List.getElem?_append_left hi]
  · rw [List.getElem?_append_right hi, List.getElem?_replicate, List.getElem?_eq_none hi]
    split <;> rfl

/-- The values of a row by name in the order of the columns, null where it has none. -/
def inOrder (s : Schema) (fields : List (String × Json)) : List Json :=
  s.names.map fun name => (field? name fields).getD .null

theorem supplied_inOrder (hknown : ∀ f ∈ fields, f.1 ∈ s.names) :
    (positional (inOrder s fields)).supplied s = (named fields).supplied s := by
  have hlength : (inOrder s fields).length = s.size := by simp [inOrder, Schema.names, Schema.size]
  rw [supplied_named hknown, supplied_positional (Nat.le_of_eq hlength)]
  congr 1
  refine List.ext_getElem (by simp [slotsOf, Schema.size]) fun i hi _ => ?_
  have hi : i < s.columns.length := by simpa [Schema.size] using hi
  simp only [inOrder, slotsOf, Schema.names, List.getElem_map, List.getElem_range,
    List.getElem?_map, List.getElem?_eq_getElem hi, Option.map_some]
  cases field? s.columns[i].name fields <;> rfl

/-! ## All shapes -/

theorem ofJson_eq_named {j : Json} (h : ofJson j = named fields) : j = .obj fields := by
  cases j with
  | obj fields' =>
    cases h
    rfl
  | _ => cases h

/-- How the shapes of a row agree, in what is encoded and in what is refused. -/
structure ShapesAgree (formats : Formats Pattern) (s : Schema) (columns : List Column) : Prop where
  /-- The fields of a row by name that a text describes are in order. -/
  ordered : ∀ text j fields, Json.read? text = some j → ofJson j = .named fields → Ordered fields
  /-- A row by name is taken field by field, in the order of the names. -/
  filled : ∀ fields, Ordered fields → (named fields).encode formats s columns = do
    let slots ← fill s fields
    encodeSlots formats s.columns columns (slots.map (·.filter (!·.isNull)))
  /-- A row by name is one by position with the same values. -/
  named : ∀ fields, (∀ f ∈ fields, f.1 ∈ s.names) →
    (named fields).encode formats s columns =
      (positional (inOrder s fields)).encode formats s columns
  /-- Nulls may stand for values that are left out at the end. -/
  padded : ∀ items n, items.length + n ≤ s.size →
    (positional (items ++ List.replicate n .null)).encode formats s columns =
      (positional items).encode formats s columns
  /-- Of the names that no column has, the one with the least bytes is refused, whatever the values
  are. -/
  unknown : ∀ fields, Ordered fields → (∃ f ∈ fields, f.1 ∉ s.names) →
    ∃ f ∈ fields, f.1 ∉ s.names ∧
      (∀ g ∈ fields, g.1 ∉ s.names → g.1 = f.1 ∨ utf8Bytes f.1 < utf8Bytes g.1) ∧
      (RowInput.named fields).encode formats s columns = .error (.unknownKey f.1)
  /-- More items than columns are refused, whatever they are. -/
  tooMany : ∀ items, s.size < items.length →
    (positional items).encode formats s columns = .error (.tooManyValues s.size items.length)

theorem shapes_agree (hs : s.names.Nodup) (formats : Formats Pattern) (columns : List Column) :
    ShapesAgree formats s columns where
  ordered text j fields hread hj := by
    rw [ofJson_eq_named hj] at hread
    exact ordered_of_read? hread
  filled fields hfields := by
    rw [encode, supplied_eq_fill hs hfields]
    cases fill s fields <;> rfl
  named fields hknown := encode_congr (supplied_inOrder hknown).symm
  padded items n h := encode_congr (supplied_append_null h)
  unknown fields hfields hunknown := by
    obtain ⟨g, hg, hgname⟩ := hunknown
    rcases known_or_exists_unknown s fields with h | ⟨front, key, raw, rest, rfl, hfront, hkey⟩
    · exact absurd (h g hg) hgname
    · refine ⟨(key, raw), by simp, hkey, fun f hf hfname => ?_,
        encode_error (supplied_unknown hfront hkey)⟩
      have hrest := (List.pairwise_append.mp hfields).2.1
      rcases List.mem_append.mp hf with hf | hf
      · exact absurd (hfront f hf) hfname
      · rcases List.mem_cons.mp hf with rfl | hf
        · exact .inl rfl
        · exact .inr (utf8Bytes_lt_iff.mpr ((List.pairwise_cons.mp hrest).1 f hf))
  tooMany items h := encode_error (supplied_tooMany h)

/-- Points with a name and two coordinates, of which the second is left out in both shapes. -/
theorem shapes_agree_points :
    ∃ formats s columns, Formats.readPatterns Config.defaultFormats = .ok formats ∧
      s.names = ["y", "x", "name"] ∧
      (named [("x", .str "2"), ("y", .str "1")]).encode formats s columns =
        .ok [.integer 1, .integer 2, .null] ∧
      (positional [.str "1", .str "2", .null]).encode formats s columns =
        .ok [.integer 1, .integer 2, .null] ∧
      (named [("X", .null), ("x", .str "far"), ("z", .str "3")]).encode formats s columns =
        .error (.unknownKey "X") ∧
      s.names.Nodup ∧ ShapesAgree formats s columns := by
  let s : Schema := ⟨[⟨"y", .integer, 4, false, true, false⟩, ⟨"x", .integer, 4, false, true, false⟩,
    ⟨"name", .text, 8, false, false, false⟩]⟩
  let columns := s.columns.map fun d => Column.new d.name d.type
  have htest : (Formats.readPatterns Config.defaultFormats).toOption.any (fun formats => decide (
      (named [("x", .str "2"), ("y", .str "1")]).encode formats s columns =
        .ok [.integer 1, .integer 2, .null] ∧
      (positional [.str "1", .str "2", .null]).encode formats s columns =
        .ok [.integer 1, .integer 2, .null] ∧
      (named [("X", .null), ("x", .str "far"), ("z", .str "3")]).encode formats s columns =
        .error (.unknownKey "X"))) = true := by decide +kernel
  have hs : s.names.Nodup := by decide +kernel
  cases hformats : Formats.readPatterns Config.defaultFormats with
  | error e => simp [hformats, Except.toOption] at htest
  | ok formats =>
    simp only [hformats, Except.toOption, Option.any_some, decide_eq_true_eq] at htest
    obtain ⟨hnamed, hpositional, hunknown⟩ := htest
    exact ⟨formats, s, columns, rfl, rfl, hnamed, hpositional, hunknown, hs,
      shapes_agree hs formats columns⟩

end RowInput

end TypedTables
