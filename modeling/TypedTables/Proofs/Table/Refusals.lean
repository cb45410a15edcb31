import TypedTables.Proofs.Table.History

/-!
# Refused rows

A row is refused with a complaint about a column just if the columns before it take their values and its
own slot is refused so (`Table.Sound.insert_error_iff`): every complaint about a value names the column
that has it, and columns have different names.
-/

namespace TypedTables

open Json

/-- The column that a complaint is about, if it is about the value of one. -/
def RowError.column? : RowError → Option String
  | unknownKey _ | tooManyValues _ _ => none
  | missingValue column | invalidKind column | tooLong column _ _ | typeMismatch column _ _
  | duplicateValue column _ | overflow column _ => some column

/-! ## Slots -/

section Encoding

variable {formats : Formats Pattern} {ds : List ColumnDecl} {cs : List Column}
  {raws : List (Option Json)} {earlier : Row} {k : Nat} {d : ColumnDecl} {c : Column}
  {raw : Option Json} {e : RowError}

theorem ColumnDecl.column?_of_slotValue (h : d.slotValue formats c raw = .error e) :
    e.column? = some d.name := by
  cases raw with
  | some raw =>
    simp only [slotValue, readRaw] at h
    repeat' split at h
    all_goals cases h
    all_goals rfl
  | none =>
    simp only [slotValue, successor] at h
    repeat' split at h
    all_goals cases h
    all_goals rfl

theorem ColumnDecl.column?_of_encodeSlot (h : d.encodeSlot formats c raw = .error e) :
    e.column? = some d.name := by
  unfold encodeSlot at h
  cases hv : d.slotValue formats c raw with
  | error e' =>
    rw [hv] at h
    cases h
    exact column?_of_slotValue hv
  | ok v =>
    rw [hv, Outcome.ok_bind] at h
    split at h
    · cases h
      rfl
    · cases h

theorem exists_of_encodeSlots_error (h : encodeSlots formats ds cs raws = .error e) :
    ∃ k d c raw earlier, ds[k]? = some d ∧ cs[k]? = some c ∧ raws[k]? = some raw ∧
      encodeSlots formats (ds.take k) (cs.take k) (raws.take k) = .ok earlier ∧
      d.encodeSlot formats c raw = .error e := by
  induction ds generalizing cs raws with
  | nil => cases h
  | cons d ds ih =>
    cases cs with
    | nil => cases h
    | cons c cs =>
      cases raws with
      | nil => cases h
      | cons raw raws =>
        rw [encodeSlots] at h
        cases hslot : d.encodeSlot formats c raw with
        | error e' =>
          rw [hslot] at h
          cases h
          exact ⟨0, d, c, raw, [], rfl, rfl, rfl, rfl, hslot⟩
        | ok v =>
          rw [hslot, Outcome.ok_bind] at h
          cases hrest : encodeSlots formats ds cs raws with
          | error e' =>
            rw [hrest] at h
            cases h
            obtain ⟨k, d', c', raw', earlier, hd, hc, hraw, hearlier, hslot'⟩ := ih hrest
            refine ⟨k + 1, d', c', raw', v :: earlier, hd, hc, hraw, ?_, hslot'⟩
            rw [List.take_succ_cons, List.take_succ_cons, List.take_succ_cons, encodeSlots, hslot,
              Outcome.ok_bind, hearlier]
            rfl
          | ok vs =>
            rw [hrest] at h
            cases h

/-- Where the columns before one have passed, the encoding of a row goes on with that column. -/
theorem encodeSlots_of_take
    (h : encodeSlots formats (ds.take k) (cs.take k) (raws.take k) = .ok earlier)
    (hd : ds[k]? = some d) (hc : cs[k]? = some c) (hraw : raws[k]? = some raw) :
    encodeSlots formats ds cs raws = do
      let v ← d.encodeSlot formats c raw
      let rest ← encodeSlots formats (ds.drop (k + 1)) (cs.drop (k + 1)) (raws.drop (k + 1))
      return earlier ++ v :: rest := by
  induction k generalizing ds cs raws earlier with
  | zero =>
    cases ds <;> cases hd
    cases cs <;> cases hc
    cases raws <;> cases hraw
    cases h
    rfl
  | succ k ih =>
    cases ds with
    | nil => cases hd
    | cons d' ds =>
      cases cs with
      | nil => cases hc
      | cons c' cs =>
        cases raws with
        | nil => cases hraw
        | cons raw' raws =>
          obtain ⟨v', hv', h⟩ := Outcome.bind_eq_ok.mp h
          obtain ⟨earlier, hearlier, h⟩ := Outcome.bind_eq_ok.mp h
          cases h
          rw [encodeSlots, hv', Outcome.ok_bind, ih hearlier hd hc hraw]
          cases d.encodeSlot formats c raw with
          | error e => rfl
          | ok v =>
            simp only [Outcome.ok_bind, List.drop_succ_cons]
            cases encodeSlots formats (ds.drop (k + 1)) (cs.drop (k + 1)) (raws.drop (k + 1)) <;> rfl

end Encoding

/-! ## Values left out -/

namespace RowInput

variable {s : Schema} {input : RowInput} {raws : List (Option Json)} {k : Nat}

def LeavesOut (s : Schema) (k : Nat) : RowInput → Prop
  | named fields => ∀ d, s.columns[k]? = some d →
    field? d.name fields = none ∨ field? d.name fields = some .null
  | positional items => items[k]? = none ∨ items[k]? = some .null

theorem filter_notNull_eq_none {j : Option Json} :
    j.filter (!·.isNull) = none ↔ j = none ∨ j = some .null := by
  cases j with
  | none => simp
  | some j => cases j <;> simp [isNull, Option.filter]

theorem supplied_eq_none (hraws : input.supplied s = .ok raws) (hk : k < s.columns.length) :
    raws[k]? = some none ↔ input.LeavesOut s k := by
  cases input with
  | named fields =>
    simp only [supplied] at hraws
    split at hraws
    · cases hraws
    · cases hraws
      rw [List.getElem?_map, List.getElem?_eq_getElem hk, Option.map_some, Option.some.injEq,
        filter_notNull_eq_none]
      constructor
      · intro h d hd
        obtain rfl := Option.some.inj (hd.symm.trans (List.getElem?_eq_getElem hk))
        exact h
      · exact fun h => h _ (List.getElem?_eq_getElem hk)
  | positional items =>
    simp only [supplied] at hraws
    split at hraws
    · cases hraws
    · cases hraws
      rw [List.getElem?_map, Schema.size, List.getElem?_range hk, Option.map_some, Option.some.injEq,
        filter_notNull_eq_none]
      rfl

theorem column?_of_supplied {e : RowError} (h : input.supplied s = .error e) : e.column? = none := by
  unfold supplied at h
  split at h
  · split at h
    · cases h
      rfl
    · cases h
  · split at h
    · cases h
      rfl
    · cases h

end RowInput

/-! ## Rows -/

namespace Table

variable {config : Config} {t : Table} {input : RowInput} {k : Nat} {d : ColumnDecl} {c : Column}
  {raw : Option Json} {e : RowError}

/-- The columns before one take their values, and for that one the row supplies this. -/
def Reaches (t : Table) (input : RowInput) (k : Nat) (raw : Option Json) : Prop :=
  ∃ raws earlier, input.supplied t.schema = .ok raws ∧
    encodeSlots t.formats (t.schema.columns.take k) (t.columns.take k) (raws.take k) = .ok earlier ∧
    raws[k]? = some raw

theorem Sound.eq_of_name_eq (h : t.Sound config) {k' : Nat} {d' : ColumnDecl}
    (hd : t.schema.columns[k]? = some d) (hd' : t.schema.columns[k']? = some d')
    (hname : d.name = d'.name) : k = k' := by
  have hk : k < t.schema.names.length := by
    rw [Schema.names, List.length_map]
    exact (List.getElem?_eq_some_iff.mp hd).1
  apply (List.getElem?_inj hk h.schema.distinct).mp
  rw [Schema.names, List.getElem?_map, List.getElem?_map, hd, hd', Option.map_some, Option.map_some,
    hname]

/-- A row is refused with a complaint about a column just if the columns before it pass and its slot is
refused so. -/
theorem Sound.insert_error_iff (h : t.Sound config) (hd : t.schema.columns[k]? = some d)
    (hc : t.columns[k]? = some c) (hcolumn : e.column? = some d.name) :
    (t.insert input).2 = .error e ↔
      ∃ raw, t.Reaches input k raw ∧ d.encodeSlot t.formats c raw = .error e := by
  constructor
  · intro herror
    cases hencode : input.encode t.formats t.schema t.columns with
    | ok row =>
      obtain ⟨t', hinsert, -⟩ := h.insert_of_encode hencode
      rw [hinsert] at herror
      cases herror
    | error e' =>
      rw [insert_of_encode_error hencode] at herror
      cases herror
      rw [RowInput.encode] at hencode
      cases hraws : input.supplied t.schema with
      | error e' =>
        rw [hraws] at hencode
        cases hencode
        rw [RowInput.column?_of_supplied hraws] at hcolumn
        cases hcolumn
      | ok raws =>
        rw [hraws, Outcome.ok_bind] at hencode
        obtain ⟨k', d', c', raw, earlier, hd', hc', hraw, hearlier, hslot⟩ :=
          exists_of_encodeSlots_error hencode
        have hname : d.name = d'.name :=
          Option.some.inj (hcolumn.symm.trans (ColumnDecl.column?_of_encodeSlot hslot))
        obtain rfl := h.eq_of_name_eq hd hd' hname
        obtain rfl := Option.some.inj (hd.symm.trans hd')
        obtain rfl := Option.some.inj (hc.symm.trans hc')
        exact ⟨raw, ⟨raws, earlier, hraws, hearlier, hraw⟩, hslot⟩
  · rintro ⟨raw, ⟨raws, earlier, hraws, hearlier, hraw⟩, hslot⟩
    have hencode : input.encode t.formats t.schema t.columns = .error e := by
      rw [RowInput.encode, hraws, Outcome.ok_bind, encodeSlots_of_take hearlier hd hc hraw, hslot]
      rfl
    rw [insert_of_encode_error hencode]

end Table

end TypedTables
