import Mathlib.Data.List.Pairwise
import TypedTables.Json.Document

/-!
# Fields of objects

The fields of an object are in increasing order of their names (`Json.Ordered`), and inserting a field
keeps them so. So every name has at most one value, and it does not matter from which end of the object
it is looked for.
-/

namespace TypedTables.Json

variable {name : String} {value : Json} {fields front back : List (String × Json)}

/-- The names are in increasing order, so that none is there twice. -/
def Ordered (fields : List (String × Json)) : Prop :=
  fields.Pairwise fun f g => f.1 < g.1

theorem Ordered.nodup (h : Ordered fields) : (fields.map Prod.fst).Nodup := by
  refine List.pairwise_map.mpr (h.imp fun {f g} hlt heq => ?_)
  rw [heq] at hlt
  exact String.lt_irrefl _ hlt

theorem mem_insertField {f : String × Json} (h : f ∈ insertField name value fields) :
    f = (name, value) ∨ f ∈ fields := by
  induction fields with
  | nil => simpa [insertField] using h
  | cons g rest ih =>
    obtain ⟨n, v⟩ := g
    rw [insertField] at h
    split at h
    · simpa using h
    · rcases List.mem_cons.mp h with h | h
      · exact .inl h
      · exact .inr (List.mem_cons_of_mem _ h)
    · rcases List.mem_cons.mp h with h | h
      · exact .inr (h ▸ List.mem_cons_self ..)
      · exact (ih h).imp_right (List.mem_cons_of_mem _)

theorem Ordered.insertField (h : Ordered fields) : Ordered (insertField name value fields) := by
  induction fields with
  | nil => exact List.pairwise_singleton _ _
  | cons g rest ih =>
    obtain ⟨n, v⟩ := g
    obtain ⟨hleast, hrest⟩ := List.pairwise_cons.mp h
    rw [Json.insertField]
    split
    · next hlt =>
      have hname : name < n := compareOfLessAndEq_eq_lt.mp hlt
      refine List.pairwise_cons.mpr ⟨fun f hf => ?_, h⟩
      rcases List.mem_cons.mp hf with rfl | hf
      · exact hname
      · exact String.lt_trans hname (hleast f hf)
    · next heq =>
      obtain rfl : name = n := Std.LawfulEqOrd.eq_of_compare heq
      exact List.pairwise_cons.mpr ⟨hleast, hrest⟩
    · next hgt =>
      have hcompare : compare n name = .lt := Std.OrientedCmp.gt_iff_lt.mp hgt
      have hname : n < name := compareOfLessAndEq_eq_lt.mp hcompare
      refine List.pairwise_cons.mpr ⟨fun f hf => ?_, ih hrest⟩
      rcases mem_insertField hf with rfl | hf
      · exact hname
      · exact hleast f hf

/-! ## Objects of documents -/

namespace Document

theorem ordered_fieldsToJson? {entries : List (Option String × Document)}
    {result : List (String × Json)} (h : Ordered fields)
    (hresult : fieldsToJson? fields entries = some result) : Ordered result := by
  induction entries generalizing fields with
  | nil =>
    cases hresult
    exact h
  | cons entry entries ih =>
    obtain ⟨name, d⟩ := entry
    unfold fieldsToJson? at hresult
    split at hresult
    · exact ih h.insertField hresult
    · cases hresult

theorem ordered_of_toJson? {d : Document} (h : d.toJson? = some (.obj fields)) :
    Ordered fields := by
  cases d with
  | fields entries =>
    rw [toJson?] at h
    obtain ⟨result, hresult, heq⟩ := Option.map_eq_some_iff.mp h
    cases heq
    exact ordered_fieldsToJson? .nil hresult
  | number n | text s | list items =>
    rw [toJson?] at h
    obtain ⟨_, _, heq⟩ := Option.map_eq_some_iff.mp h
    cases heq
  | null | bool b =>
    rw [toJson?] at h
    cases h

end Document

theorem ordered_of_read? {text : String} (h : read? text = some (.obj fields)) : Ordered fields := by
  obtain ⟨d, -, hd⟩ := Option.bind_eq_some_iff.mp h
  exact Document.ordered_of_toJson? hd

/-! ## Values under names -/

theorem field?_append :
    field? name (front ++ back) = (field? name front).or (field? name back) := by
  induction front with
  | nil => rfl
  | cons f front ih =>
    obtain ⟨n, v⟩ := f
    rw [List.cons_append, field?, field?]
    split
    · rfl
    · exact ih

theorem field?_eq_none (h : name ∉ fields.map Prod.fst) : field? name fields = none := by
  induction fields with
  | nil => rfl
  | cons f fields ih =>
    obtain ⟨n, v⟩ := f
    rw [List.map_cons, List.mem_cons, not_or] at h
    rw [field?, if_neg (by simpa using Ne.symm h.1), ih h.2]

theorem field?_of_mem (h : Ordered fields) (hmem : (name, value) ∈ fields) :
    field? name fields = some value := by
  obtain ⟨front, back, rfl⟩ := List.append_of_mem hmem
  have hnodup := h.nodup
  rw [List.map_append, List.nodup_append] at hnodup
  have hnew : name ∉ front.map Prod.fst := fun hfront => hnodup.2.2 _ hfront name (by simp) rfl
  rw [field?_append, field?_eq_none hnew, field?, if_pos (by simp), Option.none_or]

end TypedTables.Json
