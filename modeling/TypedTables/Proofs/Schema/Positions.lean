import Mathlib.Data.List.Nodup
import TypedTables.Schema.Basic

/-!
# Positions of columns

A name leads to the position of its column (`Schema.position?`) and, since no two columns have one name,
the position leads back to the name.
-/

namespace TypedTables.Schema

variable {s : Schema} {name : String} {i : Nat}

theorem position?_eq_none_iff : s.position? name = none ↔ name ∉ s.names := by
  simp [position?, names]

theorem names_getElem?_of_position? (h : s.position? name = some i) : s.names[i]? = some name := by
  obtain ⟨hi, hname, -⟩ := List.findIdx?_eq_some_iff_getElem.mp h
  rw [names, List.getElem?_map, List.getElem?_eq_getElem hi, Option.map_some, beq_iff_eq.mp hname]

theorem names_getD_of_position? (h : s.position? name = some i) : s.names.getD i "" = name := by
  rw [List.getD_eq_getElem?_getD, names_getElem?_of_position? h, Option.getD_some]

theorem lt_of_position? (h : s.position? name = some i) : i < s.columns.length := by
  obtain ⟨hi, -⟩ := List.getElem?_eq_some_iff.mp (names_getElem?_of_position? h)
  simpa [names] using hi

theorem position?_name (hs : s.names.Nodup) {d : ColumnDecl} (hd : s.columns[i]? = some d) :
    s.position? d.name = some i := by
  obtain ⟨hi, rfl⟩ := List.getElem?_eq_some_iff.mp hd
  refine List.findIdx?_eq_some_iff_getElem.mpr ⟨hi, by simp, fun j hj => ?_⟩
  have hne := List.pairwise_iff_getElem.mp hs j i (by simp [names]; omega) (by simpa [names]) hj
  simpa [names] using hne

theorem position?_eq_some_iff (hs : s.names.Nodup) :
    s.position? name = some i ↔ s.names[i]? = some name := by
  refine ⟨names_getElem?_of_position?, fun h => ?_⟩
  rw [names, List.getElem?_map] at h
  obtain ⟨d, hd, rfl⟩ := Option.map_eq_some_iff.mp h
  exact position?_name hs hd

end TypedTables.Schema
