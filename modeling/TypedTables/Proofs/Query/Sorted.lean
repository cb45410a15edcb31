import TypedTables.Proofs.Column.Slots
import TypedTables.Proofs.Query.Keys
import TypedTables.Proofs.Sorting.Stability
import TypedTables.Query.Answer

/-!
# Sorted answers

Rows sorted by keys come in the order of the first key in which they differ, and rows that tie in all
keys stay in the order they had (`Schema.StablySorted`). Rows of one schema compare transitively, so
sorting puts them in this order.
-/

namespace TypedTables

/-! ## Order by keys -/

/-- How two rows compare by a key: as their values under its name do, or the other way round. -/
def SortKey.Compares (key : SortKey) (s : Schema) (a b : Row) (o : Ordering) : Prop :=
  ∃ v w, s.value? a key.name = some v ∧ s.value? b key.name = some w ∧
    o = match key.direction with
      | .ascending => v.compare w
      | .descending => (v.compare w).swap

namespace Schema

/-- No key tells the rows apart. -/
def Tie (s : Schema) (keys : List SortKey) (a b : Row) : Prop :=
  ∀ key ∈ keys, key.Compares s a b .eq

/-- The first row is less by the first key that tells the rows apart. -/
def Before (s : Schema) (keys : List SortKey) (a b : Row) : Prop :=
  ∃ front key rest, keys = front ++ key :: rest ∧ s.Tie front a b ∧ key.Compares s a b .lt

/-- The same rows in the order of the keys, where each goes with its place among those found and the
places order the rows that tie. -/
def StablySorted (s : Schema) (keys : List SortKey) (found sorted : List Row) : Prop :=
  ∃ placed : List (Row × Nat), placed.Perm found.zipIdx ∧ placed.map Prod.fst = sorted ∧
    placed.Pairwise fun x y => s.Before keys x.1 y.1 ∨ (s.Tie keys x.1 y.1 ∧ x.2 < y.2)

end Schema

open Query.Plan (SortsBy)

variable {s : Schema} {keys : List SortKey} {order : List (Nat × Direction)} {a b : Row}

theorem SortKey.compares_compareIn {key : SortKey} {column : Nat × Direction}
    (h : SortsBy s key column) (ha : s.Admits a) (hb : s.Admits b) :
    key.Compares s a b (compareIn column a b) := by
  have hva := Schema.value?_of_position? ha.length_eq.symm h.position
  have hvb := Schema.value?_of_position? hb.length_eq.symm h.position
  refine ⟨_, _, hva, hvb, ?_⟩
  obtain ⟨name, direction⟩ := key
  obtain ⟨i, _⟩ := column
  obtain rfl := h.direction
  cases direction <;> rfl

theorem tie_of_compareRows (h : List.Forall₂ (SortsBy s) keys order) (ha : s.Admits a)
    (hb : s.Admits b) (heq : compareRows order a b = .eq) : s.Tie keys a b := by
  induction h with
  | nil => exact fun key hkey => by cases hkey
  | cons hkey _ ih =>
    rw [compareRows, Ordering.then_eq_eq] at heq
    have hfirst := SortKey.compares_compareIn hkey ha hb
    rw [heq.1] at hfirst
    exact List.forall_mem_cons.mpr ⟨hfirst, ih heq.2⟩

theorem before_of_compareRows (h : List.Forall₂ (SortsBy s) keys order) (ha : s.Admits a)
    (hb : s.Admits b) (hlt : compareRows order a b = .lt) : s.Before keys a b := by
  induction h with
  | nil => cases hlt
  | @cons key column keys order hkey _ ih =>
    have hfirst := SortKey.compares_compareIn hkey ha hb
    rw [compareRows, Ordering.then_eq_lt] at hlt
    rcases hlt with hlt | ⟨heq, hlt⟩
    · rw [hlt] at hfirst
      exact ⟨[], key, keys, rfl, by simp [Schema.Tie], hfirst⟩
    · rw [heq] at hfirst
      obtain ⟨front, other, rest, rfl, htie, hless⟩ := ih hlt
      exact ⟨key :: front, other, rest, rfl, List.forall_mem_cons.mpr ⟨hfirst, htie⟩, hless⟩

/-! ## Transitivity -/

theorem transCmp_on {α β : Type} (cmp : α → α → Ordering) [Std.TransCmp cmp] (f : β → α) :
    Std.TransCmp fun x y => cmp (f x) (f y) where
  eq_swap := Std.OrientedCmp.eq_swap
  isLE_trans := Std.TransCmp.isLE_trans

theorem exists_isOf (s : Schema) (i : Nat) :
    ∃ type, ∀ row, s.Admits row → (row.getD i .null).IsOf type := by
  rcases Nat.lt_or_ge i s.columns.length with hi | hi
  · refine ⟨s.columns[i].type, fun row hrow => ?_⟩
    have hi' : i < row.length := by rwa [← hrow.length_eq]
    rw [List.getD_eq_getElem?_getD, List.getElem?_eq_getElem hi']
    exact (hrow.get hi hi').kind
  · refine ⟨.text, fun row hrow => ?_⟩
    rw [List.getD_eq_getElem?_getD, List.getElem?_eq_none (by rwa [← hrow.length_eq])]
    exact Value.isOf_null _

theorem transCmp_compareIn (s : Schema) (column : Nat × Direction) :
    Std.TransCmp fun a b : { row // s.Admits row } => compareIn column a.1 b.1 := by
  obtain ⟨i, direction⟩ := column
  obtain ⟨type, htype⟩ := exists_isOf s i
  have hvalues : Std.TransCmp fun a b : { row // s.Admits row } =>
      (a.1.getD i .null).compare (b.1.getD i .null) :=
    transCmp_on (fun v w : { v : Value // v.IsOf type } => v.1.compare w.1)
      fun row : { row // s.Admits row } => ⟨row.1.getD i .null, htype row.1 row.2⟩
  cases direction with
  | ascending => exact hvalues
  | descending =>
    have hswap : (fun a b : { row // s.Admits row } => compareIn (i, .descending) a.1 b.1) =
        fun a b => (b.1.getD i .null).compare (a.1.getD i .null) := by
      funext a b
      exact (Value.compare_swap _ _).symm
    rw [hswap]
    exact Std.TransCmp.opposite

theorem transCmp_compareRows (s : Schema) (order : List (Nat × Direction)) :
    Std.TransCmp fun a b : { row // s.Admits row } => compareRows order a.1 b.1 := by
  induction order with
  | nil => exact { eq_swap := rfl, isLE_trans := fun _ _ => rfl }
  | cons column order ih =>
    have := transCmp_compareIn s column
    exact inferInstanceAs (Std.TransCmp (compareLex
      (fun a b : { row // s.Admits row } => compareIn column a.1 b.1)
      (fun a b => compareRows order a.1 b.1)))

/-! ## Sorting -/

theorem stablySorted_sortRows (h : List.Forall₂ (SortsBy s) keys order) {rows : List Row}
    (hrows : ∀ row ∈ rows, s.Admits row) : s.StablySorted keys rows (sortRows order rows) := by
  obtain ⟨placed, hperm, hsort, hpairs⟩ :=
    Sorting.sort_stable_of (transCmp_compareRows s order) hrows
  have hfits : ∀ x ∈ placed, s.Admits x.1 := fun x hx =>
    hrows x.1 (List.fst_mem_of_mem_zipIdx (hperm.mem_iff.mp hx))
  refine ⟨placed, hperm, hsort, hpairs.imp_of_mem fun {x y} hx hy hxy => ?_⟩
  rcases hxy with hlt | ⟨heq, hplace⟩
  · exact .inl (before_of_compareRows h (hfits x hx) (hfits y hy) hlt)
  · exact .inr ⟨tie_of_compareRows h (hfits x hx) (hfits y hy) heq, hplace⟩

end TypedTables
