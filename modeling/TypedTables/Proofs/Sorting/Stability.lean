import Mathlib.Data.List.Induction
import TypedTables.Sorting

/-!
# Stability of sorting

Sorting puts items in order and leaves those that compare as equal in the order they had. To tell
equal items apart, each carries its place among all items (`List.zipIdx`); no comparison looks at it.
-/

namespace TypedTables.Sorting

variable {α β : Type} (cmp : α → α → Ordering)

/-! ## Items seen through a function -/

theorem insert_map (f : β → α) (b : β) (items : List β) :
    insert cmp (f b) (items.map f) = (insert (fun x y => cmp (f x) (f y)) b items).map f := by
  induction items with
  | nil => rfl
  | cons last before ih =>
    rw [List.map_cons, insert, insert]
    split
    · rw [ih, List.map_cons]
    · rfl

theorem descending_append (items : List α) (a : α) :
    descending cmp (items ++ [a]) = insert cmp a (descending cmp items) := by
  simp only [descending, List.foldl_append, List.foldl_cons, List.foldl_nil]

theorem descending_map (f : β → α) (items : List β) :
    descending cmp (items.map f) = (descending (fun x y => cmp (f x) (f y)) items).map f := by
  induction items using List.reverseRecOn with
  | nil => rfl
  | append_singleton items b ih =>
    rw [List.map_append, List.map_singleton, descending_append, descending_append, ih, insert_map]

theorem sort_map (f : β → α) (items : List β) :
    sort cmp (items.map f) = (sort (fun x y => cmp (f x) (f y)) items).map f := by
  rw [sort, sort, descending_map, List.map_reverse]

/-! ## No item is lost -/

theorem insert_perm (a : α) (items : List α) : (insert cmp a items).Perm (a :: items) := by
  induction items with
  | nil => exact .refl _
  | cons last before ih =>
    rw [insert]
    split
    · exact (ih.cons last).trans (.swap a last before)
    · exact .refl _

theorem descending_perm (items : List α) : (descending cmp items).Perm items := by
  induction items using List.reverseRecOn with
  | nil => exact .refl _
  | append_singleton items a ih =>
    rw [descending_append]
    have hinsert := insert_perm cmp a (descending cmp items)
    exact hinsert.trans ((ih.cons a).trans (List.perm_append_singleton a items).symm)

theorem sort_perm (items : List α) : (sort cmp items).Perm items :=
  (List.reverse_perm _).trans (descending_perm cmp items)

theorem sort_eq_self {cmp : α → α → Ordering} (h : ∀ a b, cmp a b ≠ .lt) (items : List α) :
    sort cmp items = items := by
  have hinsert : ∀ a sorted, insert cmp a sorted = a :: sorted := fun a sorted => by
    cases sorted with
    | nil => rfl
    | cons last before => rw [insert, if_neg (h a last)]
  induction items using List.reverseRecOn with
  | nil => rfl
  | append_singleton items a ih =>
    rw [sort] at ih ⊢
    rw [descending_append, hinsert, List.reverse_cons, ih]

/-! ## Items with their places -/

/-- The first item is less, or they are equal and it has the lower place. -/
def Precedes (cmp : α → α → Ordering) (x y : α × Nat) : Prop :=
  cmp x.1 y.1 = .lt ∨ (cmp x.1 y.1 = .eq ∧ x.2 < y.2)

/-- The comparison of items that does not look at their places. -/
def placeless (cmp : α → α → Ordering) (x y : α × Nat) : Ordering := cmp x.1 y.1

variable {cmp}

theorem Precedes.isLE {x y : α × Nat} (h : Precedes cmp x y) : (cmp x.1 y.1).isLE = true := by
  rcases h with h | ⟨h, -⟩ <;> rw [h] <;> rfl

theorem precedes_of_isLE {x y : α × Nat} (h : (cmp x.1 y.1).isLE = true) (hplace : x.2 < y.2) :
    Precedes cmp x y := by
  rcases Ordering.isLE_iff_eq_lt_or_eq_eq.mp h with h | h
  · exact .inl h
  · exact .inr ⟨h, hplace⟩

section Ordered

variable [Std.TransCmp cmp]

/-- An item from behind all others goes before those that are greater, and behind the rest. -/
theorem pairwise_insert {a : α × Nat} {items : List (α × Nat)}
    (h : items.Pairwise fun x y => Precedes cmp y x) (hplace : ∀ x ∈ items, x.2 < a.2) :
    (insert (placeless cmp) a items).Pairwise fun x y => Precedes cmp y x := by
  induction items with
  | nil => exact List.pairwise_singleton _ _
  | cons last before ih =>
    obtain ⟨hlast, hbefore⟩ := List.pairwise_cons.mp h
    obtain ⟨hplaceLast, hplaceBefore⟩ := List.forall_mem_cons.mp hplace
    rw [insert]
    split
    · next hlt =>
      refine List.pairwise_cons.mpr ⟨fun x hx => ?_, ih hbefore hplaceBefore⟩
      rcases List.mem_cons.mp ((insert_perm _ a before).mem_iff.mp hx) with rfl | hx
      · exact .inl hlt
      · exact hlast x hx
    · next hlt =>
      -- The new item is not less than the greatest, so all others precede it by their places.
      have hle : (cmp last.1 a.1).isLE = true := by
        rw [show cmp last.1 a.1 = (cmp a.1 last.1).swap from Std.OrientedCmp.eq_swap]
        cases hcmp : cmp a.1 last.1 with
        | lt => exact absurd hcmp hlt
        | eq => rfl
        | gt => rfl
      refine List.pairwise_cons.mpr ⟨fun x hx => ?_, h⟩
      rcases List.mem_cons.mp hx with rfl | hx
      · exact precedes_of_isLE hle hplaceLast
      · have hx' : (cmp x.1 last.1).isLE = true := (hlast x hx).isLE
        exact precedes_of_isLE (Std.TransCmp.isLE_trans hx' hle) (hplaceBefore x hx)

theorem pairwise_descending {items : List (α × Nat)} (h : items.Pairwise fun x y => x.2 < y.2) :
    (descending (placeless cmp) items).Pairwise fun x y => Precedes cmp y x := by
  induction items using List.reverseRecOn with
  | nil => exact .nil
  | append_singleton items a ih =>
    obtain ⟨hitems, -, hplace⟩ := List.pairwise_append.mp h
    rw [descending_append]
    refine pairwise_insert (ih hitems) fun x hx => ?_
    have hmem : x ∈ items := (descending_perm _ items).mem_iff.mp hx
    exact hplace x hmem a (List.mem_singleton_self a)

theorem pairwise_zipIdx (items : List α) : items.zipIdx.Pairwise fun x y => x.2 < y.2 := by
  have h : (items.zipIdx.map Prod.snd).Pairwise (· < ·) := by
    rw [List.zipIdx_map_snd]
    exact List.pairwise_lt_range'
  exact List.pairwise_map.mp h

variable (cmp)

/-- Sorting is putting the items with their places in order, equal ones by their places. -/
theorem sort_stable (items : List α) : ∃ placed : List (α × Nat),
    placed.Perm items.zipIdx ∧ placed.map Prod.fst = sort cmp items ∧
      placed.Pairwise (Precedes cmp) := by
  refine ⟨sort (placeless cmp) items.zipIdx, sort_perm _ _, ?_, ?_⟩
  · have hmap := sort_map cmp Prod.fst items.zipIdx
    rw [List.zipIdx_map_fst] at hmap
    exact hmap.symm
  · rw [sort, List.pairwise_reverse]
    exact pairwise_descending (pairwise_zipIdx items)

end Ordered

/-- The same for a comparison that orders only some items, as long as all that are sorted are such. -/
theorem sort_stable_of {cmp : α → α → Ordering} {P : α → Prop}
    (hcmp : Std.TransCmp fun a b : { a // P a } => cmp a.1 b.1) {items : List α}
    (hitems : ∀ a ∈ items, P a) : ∃ placed : List (α × Nat),
      placed.Perm items.zipIdx ∧ placed.map Prod.fst = sort cmp items ∧
        placed.Pairwise (Precedes cmp) := by
  obtain ⟨placed, hperm, hsort, hpairs⟩ :=
    sort_stable (fun a b : { a // P a } => cmp a.1 b.1) (items.attachWith P hitems)
  have hval : (items.attachWith P hitems).map Subtype.val = items :=
    List.attachWith_map_subtype_val hitems
  refine ⟨placed.map (Prod.map Subtype.val id), ?_, ?_, ?_⟩
  · have := hperm.map (Prod.map Subtype.val id)
    rwa [← List.zipIdx_map, hval] at this
  · have := sort_map cmp Subtype.val (items.attachWith P hitems)
    rw [hval, ← hsort, List.map_map] at this
    rw [this, List.map_map]
    rfl
  · rw [List.pairwise_map]
    exact hpairs

end TypedTables.Sorting
