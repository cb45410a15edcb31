/-!
# Sorting

Insertion sort by a comparison. Items are taken in one by one, each at the end or, for as long as it
is less than the one before it, further to the front. So items that compare as equal stay in the
order they had, and items that are in order are compared once each.
-/

namespace TypedTables.Sorting

variable {α : Type}

/-- Puts an item among items of which the greatest comes first, before those that it is not less
than. -/
def insert (cmp : α → α → Ordering) (a : α) : List α → List α
  | [] => [a]
  | last :: before =>
    if cmp a last = .lt then last :: insert cmp a before else a :: last :: before

/-- The items taken in so far, the greatest first. -/
def descending (cmp : α → α → Ordering) (items : List α) : List α :=
  items.foldl (fun sorted a => insert cmp a sorted) []

def sort (cmp : α → α → Ordering) (items : List α) : List α := (descending cmp items).reverse

end TypedTables.Sorting
