import TypedTables.Proofs.Table.History

/-!
# Where stored values come from

A value that a table holds was read from a text that the row supplied, or counted on from the value
of the row before (`Table.Origin`).
-/

namespace TypedTables

/-! ## Values counted on -/

/-- The second value is one more than the first. -/
inductive Value.Next : Value → Value → Prop where
  | integer {i : Int64} (room : i < Int64.maxValue) : Next (.integer i) (.integer (i + 1))
  | number {x : Binary64} (finite : x.addOne.isFinite = true)
    (changed : x.addOne.sameNumber x = false) : Next (.number x) (.number x.addOne)

namespace ColumnDecl

variable {d : ColumnDecl} {formats : Formats Pattern} {c : Column} {n : Nat} {v : Value}

def firstCount (d : ColumnDecl) : Value :=
  if d.type = .number then .number (Binary64.ofInt 1) else .integer 1

/-- A column that counts on starts with one if it has no slots, and else goes on from the last. -/
theorem successor_eq_ok (hd : d.type = .number ∨ d.type = .integer) (hauto : d.autoincrement = true)
    (hc : c.Fits d n) (h : d.successor c = .ok v) :
    (n = 0 ∧ v = d.firstCount) ∨ ∃ m w, n = m + 1 ∧ c.get? m = some w ∧ w.Next v := by
  cases n with
  | zero =>
    have hlast := hc.last?_eq_none
    rcases hd with htype | htype
    · simp only [successor, htype, hlast, Except.ok.injEq] at h
      exact .inl ⟨rfl, by rw [← h, firstCount, if_pos htype]⟩
    · simp only [successor, htype, hlast, Except.ok.injEq] at h
      exact .inl ⟨rfl, by rw [← h, firstCount, if_neg (by simp [htype])]⟩
  | succ m =>
    obtain ⟨w, hw, hlast, hadmits⟩ := hc.exists_last?
    have hwtype := hadmits.kind.type.resolve_left (hadmits.filled (.inr hauto))
    refine .inr ⟨m, w, rfl, hw, ?_⟩
    rcases hd with htype | htype <;> rw [htype] at hwtype <;> cases w <;> cases hwtype
    · simp only [successor, htype, hlast] at h
      split at h
      · cases h
      · next hnext =>
        cases h
        simp only [Bool.or_eq_true, Bool.not_eq_true', not_or, Bool.not_eq_false,
          Bool.not_eq_true] at hnext
        exact .number hnext.1 hnext.2
    · simp only [successor, htype, hlast] at h
      split at h
      · next hroom =>
        cases h
        exact .integer hroom
      · cases h

/-- What a supplied value is read from. -/
structure ReadsFrom (d : ColumnDecl) (formats : Formats Pattern) (text : String) (v : Value) :
    Prop where
  short : text.length ≤ d.size
  accepted : formats.accepts d.type text = true
  reads : Value.read? d.type text = some v

theorem readRaw_eq_ok {raw : Json} :
    d.readRaw formats raw = .ok v ↔ ∃ text, rawText? raw = some text ∧ d.ReadsFrom formats text v := by
  unfold readRaw
  cases hraw : rawText? raw with
  | none => simp
  | some text =>
    constructor
    · intro h
      dsimp only at h
      split at h
      · cases h
      · next hshort =>
        split at h
        · cases h
        · next haccepted =>
          split at h
          · next hread =>
            cases h
            exact ⟨text, rfl, by omega, by simpa using haccepted, hread⟩
          · cases h
    · rintro ⟨text', htext, hshort, haccepted, hread⟩
      cases htext
      dsimp only
      rw [if_neg (by omega), if_neg (by simp [haccepted]), hread]

end ColumnDecl

/-! ## Stored values -/

namespace Table

variable {config : Config} {t : Table} {row : Row} {i k : Nat} {d : ColumnDecl} {v : Value}

def value? (t : Table) (i k : Nat) : Option Value := (t.row? i).bind (·[k]?)

theorem Sound.admits_of_value? (h : t.Sound config) (hd : t.schema.columns[k]? = some d)
    (hv : t.value? i k = some v) : d.Admits v := by
  obtain ⟨c, -, hfits, hget⟩ := h.exists_column hd
  exact hfits.slots i v ((hget i).trans hv)

/-- How the value of a row comes to be in a column. -/
inductive Origin (t : Table) (i k : Nat) (d : ColumnDecl) : Value → Prop where
  | supplied {text : String} {v : Value} (reads : d.ReadsFrom t.formats text v) :
    Origin t i k d v
  | first (auto : d.autoincrement = true) (top : i = 0) : Origin t i k d d.firstCount
  | counted {j : Nat} {w v : Value} (auto : d.autoincrement = true) (below : i = j + 1)
    (before : t.value? j k = some w) (next : w.Next v) : Origin t i k d v
  | left (required : d.required = false) (auto : d.autoincrement = false) : Origin t i k d .null

theorem Reachable.origin (h : t.Reachable config) (hd : t.schema.columns[k]? = some d)
    (hv : t.value? i k = some v) : t.Origin i k d v := by
  obtain ⟨row, hrow, hv⟩ := Option.bind_eq_some_iff.mp hv
  obtain ⟨c, raw, hfits, hget, hslot⟩ := h.exists_encodeSlot hd hrow hv
  obtain ⟨hvalue, -⟩ := ColumnDecl.encodeSlot_eq_ok.mp hslot
  cases raw with
  | some raw =>
    obtain ⟨text, -, hreads⟩ := ColumnDecl.readRaw_eq_ok.mp hvalue
    exact .supplied hreads
  | none =>
    simp only [ColumnDecl.slotValue] at hvalue
    split at hvalue
    · cases hvalue
    · next hrequired =>
      split at hvalue
      · next hauto =>
        have hnumeric := (h.sound.schema.columns d (List.mem_of_getElem? hd)).numeric hauto
        rcases ColumnDecl.successor_eq_ok hnumeric hauto hfits hvalue with
          ⟨rfl, rfl⟩ | ⟨j, w, rfl, hw, hnext⟩
        · exact .first hauto rfl
        · rw [hget j (Nat.lt_succ_self j)] at hw
          exact .counted hauto rfl hw hnext
      · next hauto =>
        cases hvalue
        exact .left (by simpa using hrequired) (by simpa using hauto)

end Table

end TypedTables
