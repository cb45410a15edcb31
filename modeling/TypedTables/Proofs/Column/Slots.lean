import Mathlib.Data.List.Forall2
import TypedTables.Column
import TypedTables.Proofs.Value.Order
import TypedTables.Schema.Basic

/-!
# Slots of columns

A column whose store is of the kind of its type and has as many slots as its mask (`Column.Aligned`)
reads as a list of values: `push` fails on nothing that the column accepts, puts the value behind the
others and leaves those alone. `Column.Fits` says in addition that the column belongs to a definition
and that each of its values is one that the definition admits.
-/

namespace TypedTables

/-! ## Stores -/

namespace Store

def Suits : Store → ColumnType → Prop
  | integers _, .integer => True
  | numbers _, .number => True
  | booleans _, .boolean => True
  | texts _, .text => True
  | texts _, .time => True
  | texts _, .date => True
  | _, _ => False

variable {type : ColumnType} {st : Store}

theorem suits_ofType (type : ColumnType) : (ofType type).Suits type := by
  cases type <;> trivial

theorem size_ofType (type : ColumnType) : (ofType type).size = 0 := by
  cases type <;> rfl

theorem suits_pushPlaceholder (h : st.Suits type) : st.pushPlaceholder.Suits type := by
  cases st <;> cases type <;> exact h

theorem size_pushPlaceholder (st : Store) : st.pushPlaceholder.size = st.size + 1 := by
  cases st <;> simp [pushPlaceholder, size]

theorem get?_pushPlaceholder {i : Nat} (h : i < st.size) :
    st.pushPlaceholder.get? type i = st.get? type i := by
  cases st <;> simp only [pushPlaceholder, get?, size] at h ⊢ <;>
    rw [Array.getElem?_push, if_neg (by omega)]

theorem exists_get? (hs : st.Suits type) {i : Nat} (hi : i < st.size) :
    ∃ v, st.get? type i = some v ∧ v.columnType? = some type := by
  cases st <;> cases type <;> first
    | exact hs.elim
    | (simp only [size] at hi
       simp only [get?, Array.getElem?_eq_getElem hi, Option.map_some]
       exact ⟨_, rfl, rfl⟩)

theorem map_getElem?_push {α β : Type} (f : α → β) (xs : Array α) (a : α) (i : Nat) :
    (xs.push a)[i]?.map f = if i = xs.size then some (f a) else xs[i]?.map f := by
  rw [Array.getElem?_push]
  split <;> rfl

theorem exists_push? (hs : st.Suits type) {v : Value} (hv : v.columnType? = some type) :
    ∃ st', st.push? v = some st' ∧ st'.Suits type ∧ st'.size = st.size + 1 ∧
      ∀ i, st'.get? type i = if i = st.size then some v else st.get? type i := by
  cases st <;> cases type <;> cases v <;> first
    | exact hs.elim
    | (cases hv; done)
    | exact ⟨_, rfl, trivial, by simp [size], fun i => map_getElem?_push ..⟩

end Store

/-! ## Columns -/

namespace Column

/-- The store is of the kind of the column's type, and it has a slot for each place of the mask. -/
structure Aligned (c : Column) : Prop where
  store : c.store.Suits c.type
  size : c.store.size = c.empties.size

theorem aligned_new (name : String) (type : ColumnType) : (new name type).Aligned :=
  ⟨Store.suits_ofType type, Store.size_ofType type⟩

variable {c : Column} {v : Value}

theorem accepts_iff : c.accepts v = true ↔ v = .null ∨ v.columnType? = some c.type := by
  cases v <;> simp [accepts, Value.columnType?]

theorem Aligned.exists_get? (h : c.Aligned) {i : Nat} (hi : i < c.size) :
    ∃ v, c.get? i = some v ∧ (v = .null ∨ v.columnType? = some c.type) := by
  unfold get?
  rw [Array.getElem?_eq_getElem hi]
  cases c.empties[i] with
  | true => exact ⟨_, rfl, .inl rfl⟩
  | false =>
    obtain ⟨v, hv, htype⟩ := Store.exists_get? h.store (i := i) (by rw [h.size]; exact hi)
    exact ⟨v, hv, .inr htype⟩

theorem get?_eq_none {i : Nat} (hi : c.size ≤ i) : c.get? i = none := by
  unfold get?
  rw [Array.getElem?_eq_none hi]

def grow (c : Column) (st : Store) (empty : Bool) : Column :=
  { c with store := st, empties := c.empties.push empty }

theorem get?_grow_of_ne {st : Store} {i : Nat} (hi : i ≠ c.size)
    (hst : i < c.size → st.get? c.type i = c.store.get? c.type i) (empty : Bool) :
    (c.grow st empty).get? i = c.get? i := by
  unfold size at hi hst
  simp only [get?, grow, Array.getElem?_push, if_neg hi]
  rcases Nat.lt_or_ge i c.empties.size with hlt | hge
  · rw [hst hlt]
  · rw [Array.getElem?_eq_none hge]

theorem get?_grow_self (c : Column) (st : Store) (empty : Bool) :
    (c.grow st empty).get? c.size = if empty then some .null else st.get? c.type c.size := by
  cases empty <;> simp [get?, grow, size]

theorem Aligned.push (h : c.Aligned) (hv : c.accepts v = true) :
    ∃ c', c.push v = .ok c' ∧ c'.Aligned ∧ c'.name = c.name ∧ c'.type = c.type ∧
      c'.size = c.size + 1 ∧ ∀ i, c'.get? i = if i = c.size then some v else c.get? i := by
  have hsize : ∀ st empty, (c.grow st empty).size = c.size + 1 := fun _ _ => by
    simp [grow, Column.size]
  rcases accepts_iff.mp hv with rfl | htype
  · refine ⟨c.grow c.store.pushPlaceholder true, rfl,
      ⟨Store.suits_pushPlaceholder h.store, ?_⟩, rfl, rfl, hsize _ _, fun i => ?_⟩
    · simp [grow, Store.size_pushPlaceholder, h.size]
    · split
      · next hi => rw [hi, get?_grow_self, if_pos rfl]
      · next hi =>
        exact get?_grow_of_ne hi (fun hlt => Store.get?_pushPlaceholder (by rwa [h.size])) _
  · have hnull : v.isNull = false := by
      have := Value.ne_null_of_columnType? htype
      cases v <;> first | rfl | contradiction
    obtain ⟨st, hst, hsuits, hstore, hget⟩ := Store.exists_push? h.store htype
    refine ⟨c.grow st false, ?_, ⟨hsuits, ?_⟩, rfl, rfl, hsize _ _, fun i => ?_⟩
    · simp [Column.push, hnull, hv, hst, grow]
    · simp [grow, hstore, h.size]
    · split
      · next hi =>
        rw [hi, get?_grow_self, hget, h.size]
        exact if_pos rfl
      · next hi =>
        have hne : i ≠ c.store.size := by rwa [h.size]
        exact get?_grow_of_ne hi (fun _ => by rw [hget, if_neg hne]) _

end Column

/-! ## Columns of a definition -/

/-- The value may be in a slot of the column, which is empty only where that is allowed. -/
structure ColumnDecl.Admits (d : ColumnDecl) (v : Value) : Prop where
  kind : v.IsOf d.type
  filled : d.required = true ∨ d.autoincrement = true → v ≠ .null

/-- The row has a value for each column, and one that the definition admits. -/
abbrev Schema.Admits (s : Schema) (row : Row) : Prop := List.Forall₂ ColumnDecl.Admits s.columns row

/-- The column is the one that a definition asks for, with this many slots. -/
structure Column.Fits (c : Column) (d : ColumnDecl) (rows : Nat) : Prop where
  name : c.name = d.name
  type : c.type = d.type
  store : c.store.Suits d.type
  mask : c.empties.size = rows
  contents : c.store.size = rows
  slots : ∀ i v, c.get? i = some v → d.Admits v

namespace Column

variable {c : Column} {d : ColumnDecl} {n : Nat} {v : Value}

theorem Fits.aligned (h : c.Fits d n) : c.Aligned :=
  ⟨h.type ▸ h.store, h.contents.trans h.mask.symm⟩

theorem fits_new (d : ColumnDecl) : (new d.name d.type).Fits d 0 where
  name := rfl
  type := rfl
  store := Store.suits_ofType d.type
  mask := rfl
  contents := Store.size_ofType d.type
  slots i v h := by
    rw [get?_eq_none (Nat.zero_le i)] at h
    cases h

theorem Fits.accepts (h : c.Fits d n) (hv : d.Admits v) : c.accepts v = true := by
  rw [accepts_iff, h.type]
  exact hv.kind.type

theorem Fits.exists_get? (h : c.Fits d n) {i : Nat} (hi : i < n) :
    ∃ v, c.get? i = some v ∧ d.Admits v := by
  obtain ⟨v, hv, -⟩ := h.aligned.exists_get? (i := i) (Nat.lt_of_lt_of_eq hi h.mask.symm)
  exact ⟨v, hv, h.slots i v hv⟩

theorem Fits.last?_eq_none (h : c.Fits d 0) : c.last? = none := if_pos h.mask

theorem Fits.exists_last? (h : c.Fits d (n + 1)) :
    ∃ v, c.get? n = some v ∧ c.last? = some v ∧ d.Admits v := by
  obtain ⟨v, hv, hadmits⟩ := h.exists_get? (Nat.lt_succ_self n)
  have hsize : c.size = n + 1 := h.mask
  refine ⟨v, hv, ?_, hadmits⟩
  rw [last?, if_neg (by omega), hsize, Nat.add_sub_cancel, hv]

theorem Fits.push (h : c.Fits d n) (hv : d.Admits v) :
    ∃ c', c.push v = .ok c' ∧ c'.Fits d (n + 1) ∧
      ∀ i, c'.get? i = if i = n then some v else c.get? i := by
  obtain ⟨c', hpush, haligned, hname, htype, hsize, hget⟩ := h.aligned.push (h.accepts hv)
  have hn : c.size = n := h.mask
  rw [hn] at hsize hget
  refine ⟨c', hpush, ⟨hname.trans h.name, htype.trans h.type, ?_, hsize, ?_, fun i w hw => ?_⟩, hget⟩
  · have := haligned.store
    rwa [htype, h.type] at this
  · exact haligned.size.trans hsize
  · rw [hget] at hw
    split at hw
    · cases hw
      exact hv
    · exact h.slots i w hw

end Column

end TypedTables
