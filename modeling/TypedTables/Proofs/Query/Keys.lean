import TypedTables.Proofs.Outcome
import TypedTables.Proofs.Schema.Positions
import TypedTables.Proofs.Text.Words
import TypedTables.Query.Plan
import TypedTables.Value.Basic

/-!
# Columns that a query names

What a row holds under a name (`Schema.value?`), which columns a query asks for, and what its order
entries say. A plan has positions in place of the names; they lead to the same values.
-/

namespace TypedTables

open Text

/-! ## Values under names -/

namespace Schema

variable {s : Schema} {row : Row} {name : String} {i : Nat}

def value? (s : Schema) (row : Row) (name : String) : Option Value :=
  (s.names.zip row).lookup name

/-- The values are those that the row holds under the names. -/
abbrev Shows (s : Schema) (row : Row) (names : List String) (values : Row) : Prop :=
  List.Forall₂ (fun name v => s.value? row name = some v) names values

theorem lookup_zip_of_findIdx? {ds : List ColumnDecl} {row : Row} {i : Nat}
    (hlen : row.length = ds.length) (h : ds.findIdx? (fun d => d.name == name) = some i) :
    ((ds.map ColumnDecl.name).zip row).lookup name = some (row.getD i .null) := by
  induction ds generalizing row i with
  | nil => cases h
  | cons d ds ih =>
    obtain ⟨v, row, rfl⟩ := List.exists_cons_of_length_eq_add_one hlen
    rw [List.findIdx?_cons] at h
    rw [List.map_cons, List.zip_cons_cons, List.lookup_cons]
    by_cases hd : d.name = name
    · have hself : (name == d.name) = true := by simp [hd]
      have hi : 0 = i := by simpa [hd] using h
      simp only [hself, ← hi]
      rfl
    · have hother : (name == d.name) = false := by simpa using fun e => hd e.symm
      rw [if_neg (by simpa using hd)] at h
      obtain ⟨j, hj, rfl⟩ := Option.map_eq_some_iff.mp h
      simp only [hother, ih (by simpa using hlen) hj]
      rfl

theorem value?_of_position? (hlen : row.length = s.columns.length)
    (h : s.position? name = some i) : s.value? row name = some (row.getD i .null) :=
  lookup_zip_of_findIdx? hlen h

/-- A row shows all its values under the names of the columns, which are different. -/
theorem shows_names (hnames : s.names.Nodup) (hlen : row.length = s.columns.length) :
    s.Shows row s.names row := by
  have hlen : row.length = s.names.length := by simpa [names] using hlen
  unfold Shows value?
  clear * - hnames hlen
  generalize s.names = ns at hnames hlen ⊢
  induction ns generalizing row with
  | nil =>
    rw [List.length_eq_zero_iff.mp hlen]
    exact .nil
  | cons n ns ih =>
    obtain ⟨v, row, rfl⟩ := List.exists_cons_of_length_eq_add_one hlen
    obtain ⟨hnew, hns⟩ := List.nodup_cons.mp hnames
    refine .cons (by simp) ?_
    have hrest := ih hns (by simpa using hlen)
    refine ((List.forall₂_and_left _ _).mpr ⟨fun m hm => hm, hrest⟩).imp fun m w hmw => ?_
    obtain ⟨hm, hw⟩ := hmw
    have hne : m ≠ n := by
      rintro rfl
      exact hnew hm
    have hother : (m == n) = false := beq_eq_false_iff_ne.mpr hne
    simp only [List.zip_cons_cons, List.lookup_cons, hother, hw]

end Schema

/-! ## Columns asked for -/

/-- The columns to return: all of them if none is named. -/
def Query.asked (q : Query) (s : Schema) : List String :=
  match q.keys with
  | none | some [] => s.names
  | some keys => keys

namespace Query.Plan

variable {s : Schema}

theorem locate_eq_ok {key : String} {i : Nat} (h : locate s key = .ok i) :
    s.position? key = some i := by
  unfold locate at h
  split at h
  · next hi =>
    cases h
    exact hi
  · cases h

theorem locateAll_eq_ok {keys : List String} {earlier is : List Nat}
    (h : locateAll s earlier keys = .ok is) :
    List.Forall₂ (fun key i => s.position? key = some i) keys is := by
  induction keys generalizing earlier is with
  | nil =>
    cases h
    exact .nil
  | cons key keys ih =>
    obtain ⟨i, hi, h⟩ := Outcome.bind_eq_ok.mp h
    split at h
    · cases h
    · obtain ⟨rest, hrest, h⟩ := Outcome.bind_eq_ok.mp h
      cases h
      exact .cons (locate_eq_ok hi) (ih hrest)

theorem readProjection_eq_ok {q : Query} {projection : Option (List Nat)}
    (h : readProjection s q.keys = .ok projection) :
    (projection = none ∧ q.asked s = s.names) ∨
      ∃ is, projection = some is ∧
        List.Forall₂ (fun key i => s.position? key = some i) (q.asked s) is := by
  unfold asked
  cases hkeys : q.keys with
  | none =>
    rw [hkeys] at h
    cases h
    exact .inl ⟨rfl, rfl⟩
  | some keys =>
    rw [hkeys] at h
    cases keys with
    | nil =>
      cases h
      exact .inl ⟨rfl, rfl⟩
    | cons key keys =>
      obtain ⟨is, his, h⟩ := Outcome.bind_eq_ok.mp h
      cases h
      exact .inr ⟨is, rfl, locateAll_eq_ok his⟩

end Query.Plan

/-! ## Order entries -/

structure SortKey where
  name : String
  direction : Direction

/-- An order entry says to sort by this key: a name alone, or a name and a direction with the first
colon between them, blanks at the ends of both aside. -/
inductive SortKey.WrittenAs : String → SortKey → Prop where
  | plain {entry : String} (h : ':' ∉ entry.toList) :
    WrittenAs entry ⟨trimmed entry.toList, .ascending⟩
  | directed {entry : String} {name word : List Char} {d : Direction}
    (h : entry.toList = name ++ ':' :: word) (hname : ':' ∉ name)
    (hword : sameIgnoringCase d.word (trimmed word) = true) :
    WrittenAs entry ⟨trimmed name, d⟩

namespace Query.Plan

variable {s : Schema}

theorem ofWord?_eq_some {word : String} {d : Direction} (h : Direction.ofWord? word = some d) :
    sameIgnoringCase d.word word = true :=
  sameIgnoringCase_of_find? h

/-- A key and a place in a plan that sort by the same column, in the same direction. -/
structure SortsBy (s : Schema) (key : SortKey) (column : Nat × Direction) : Prop where
  position : s.position? key.name = some column.1
  direction : key.direction = column.2

theorem readOrderEntry_eq_ok {entry : String} {column : Nat × Direction}
    (h : readOrderEntry s entry = .ok column) :
    ∃ key, SortKey.WrittenAs entry key ∧ SortsBy s key column := by
  have hsplit := List.takeWhile_append_dropWhile (p := (· != ':')) (l := entry.toList)
  have hall := List.all_eq_true.mp (List.all_takeWhile (p := (· != ':')) (l := entry.toList))
  have hname : ':' ∉ entry.toList.takeWhile (· != ':') := fun hmem => by
    simpa using hall _ hmem
  simp only [readOrderEntry, Outcome.ok_bind, Outcome.error_bind] at h
  split at h
  · next hnone =>
    obtain ⟨i, hi, h⟩ := Outcome.bind_eq_ok.mp h
    cases h
    rw [hnone, List.append_nil] at hsplit
    rw [hsplit] at hname hi
    exact ⟨_, .plain hname, locate_eq_ok hi, rfl⟩
  · next c word hword =>
    have hc : c = ':' := by
      have := List.head?_dropWhile_not (· != ':') entry.toList
      rw [hword] at this
      simpa using this
    split at h
    · next d hd =>
      obtain ⟨i, hi, h⟩ := Outcome.bind_eq_ok.mp h
      cases h
      rw [hword, hc] at hsplit
      exact ⟨_, .directed hsplit.symm hname (ofWord?_eq_some hd), locate_eq_ok hi, rfl⟩
    · cases h

theorem readOrder_eq_ok {entries : List String} {order : List (Nat × Direction)}
    (h : entries.mapM (readOrderEntry s) = .ok order) :
    ∃ keys, List.Forall₂ SortKey.WrittenAs entries keys ∧ List.Forall₂ (SortsBy s) keys order := by
  replace h := Outcome.mapM_eq_ok.mp h
  induction h with
  | nil => exact ⟨[], .nil, .nil⟩
  | cons hentry _ ih =>
    obtain ⟨key, hwritten, hsorts⟩ := readOrderEntry_eq_ok hentry
    obtain ⟨keys, hkeys, horder⟩ := ih
    exact ⟨key :: keys, .cons hwritten hkeys, .cons hsorts horder⟩

end Query.Plan

end TypedTables
