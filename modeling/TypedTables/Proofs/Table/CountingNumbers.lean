import TypedTables.Proofs.Binary64.Successor
import TypedTables.Proofs.Table.Counting

/-!
# Counting in doubles

What a column of numbers that counts on holds for a row that leaves it out, if the row before has a whole
number there (`Table.GoesOn`): the next whole number as long as that is a double. From `2^53` on the row is
refused, as one more is rounded back, unless it is rounded up: then the row gets two more.
-/

namespace TypedTables

open Binary64 (nextWhole? nextWhole?_ne)

/-- The column holds numbers and counts on where a row leaves it out. -/
structure ColumnDecl.CountsNumbers (d : ColumnDecl) : Prop where
  number : d.type = .number
  auto : d.autoincrement = true
  optional : d.required = false

section Successor

variable {d : ColumnDecl} {c : Column} {x : Binary64} {m n : Nat}

theorem ColumnDecl.CountsNumbers.successor_eq (h : d.CountsNumbers) (hlast : c.last? = some (.number x)) :
    d.successor c = if !x.addOne.isFinite || x.addOne.sameNumber x
      then .error (.overflow d.name (toString x)) else .ok (.number x.addOne) := by
  simp only [successor, h.number, hlast]

theorem ColumnDecl.CountsNumbers.successor_of_next (h : d.CountsNumbers)
    (hlast : c.last? = some (.number x)) (hx : x.IsWhole n) (hm : nextWhole? n = some m) :
    d.successor c = .ok (.number x.addOne) ∧ x.addOne.IsWhole m := by
  have hnext := hx.addOne hm
  have hother : x.addOne.sameNumber x = false := by
    rw [← Bool.not_eq_true]
    exact fun hsame => nextWhole?_ne hm (hnext.eq_of_sameNumber hx hsame)
  refine ⟨?_, hnext⟩
  rw [h.successor_eq hlast, hnext.finite, hother]
  rfl

theorem ColumnDecl.CountsNumbers.successor_of_none (h : d.CountsNumbers)
    (hlast : c.last? = some (.number x)) (hx : x.IsWhole n) (hnone : nextWhole? n = none) :
    d.successor c = .error (.overflow d.name (toString x)) := by
  rw [h.successor_eq hlast, hx.addOne_eq_self hnone, hx.sameNumber_self, Bool.or_true, if_pos rfl]

end Successor

namespace Table

variable {config : Config} {t : Table} {input : RowInput} {k r n : Nat} {d : ColumnDecl}
  {x : Binary64}

/-- What becomes of a row that leaves a column of numbers out, after one that has the whole number `n`
there as the double `x`. -/
structure GoesOn (t : Table) (input : RowInput) (k : Nat) (d : ColumnDecl) (x : Binary64) (n : Nat) :
    Prop where
  /-- The slot is filled with the whole number that adding one leads to. -/
  filled : ∀ m, nextWhole? n = some m → ∃ c y, t.columns[k]? = some c ∧
    d.slotValue t.formats c none = .ok (.number y) ∧ y.IsWhole m
  /-- It is that number that the row has, if it is taken in. -/
  taken : (t.insert input).2 = .ok () → ∃ m y, nextWhole? n = some m ∧
    (t.insert input).1.value? t.rowCount k = some (.number y) ∧ y.IsWhole m
  /-- Where adding one leads nowhere, the row is refused. -/
  overflow : ∀ shown, (t.insert input).2 = .error (.overflow d.name shown) ↔
    nextWhole? n = none ∧ shown = toString x
  /-- A row that is refused leaves the table as it is. -/
  refused : ∀ e, (t.insert input).2 = .error e → (t.insert input).1 = t

theorem Sound.goesOn (h : t.Sound config) (hd : t.schema.columns[k]? = some d)
    (hcounts : d.CountsNumbers) (hr : t.rowCount = r + 1) (hlast : t.value? r k = some (.number x))
    (hx : x.IsWhole n) (hout : input.LeavesOut t.schema k) (hpasses : t.Passes input k) :
    t.GoesOn input k d x n := by
  obtain ⟨c, hc, hfits, hget⟩ := h.exists_column hd
  rw [hr] at hfits
  have hlast : c.last? = some (.number x) := by
    obtain ⟨v, hv, hcolumn, -⟩ := hfits.exists_last?
    rw [hcolumn, ← hv, hget]
    exact hlast
  have hslot : d.slotValue t.formats c none = d.successor c :=
    ColumnDecl.slotValue_none hcounts.auto hcounts.optional t.formats c
  have hnext := fun m => hcounts.successor_of_next (m := m) hlast hx
  have hend := hcounts.successor_of_none hlast hx
  refine ⟨fun m hm => ?_, fun hok => ?_, fun shown => ?_, (h.takes input).refused⟩
  · obtain ⟨hvalue, hwhole⟩ := hnext m hm
    exact ⟨c, x.addOne, hc, hslot.trans hvalue, hwhole⟩
  · obtain ⟨v, hnew, hvalue⟩ := h.value?_of_leavesOut hd hc hout hok
    rw [hslot] at hvalue
    cases hm : nextWhole? n with
    | none =>
      rw [hend hm] at hvalue
      cases hvalue
    | some m =>
      obtain ⟨hsuccessor, hwhole⟩ := hnext m hm
      rw [hsuccessor] at hvalue
      cases hvalue
      exact ⟨m, x.addOne, rfl, hnew, hwhole⟩
  · rw [h.insert_overflow_iff hd hc hcounts.auto hcounts.optional hout hpasses]
    cases hm : nextWhole? n with
    | none =>
      rw [hend hm]
      simp [eq_comm]
    | some m =>
      rw [(hnext m hm).1]
      simp

/-- A reachable table with a whole number in the last slot of a column of numbers goes on from there. -/
theorem goesOn_of_reachable (h : t.Reachable config) (hd : t.schema.columns[k]? = some d)
    (hcounts : d.CountsNumbers) (hr : t.rowCount = r + 1) (hlast : t.value? r k = some (.number x))
    (hx : x.IsWhole n) (hout : input.LeavesOut t.schema k) (hpasses : t.Passes input k) :
    t.GoesOn input k d x n :=
  h.sound.goesOn hd hcounts hr hlast hx hout hpasses

def numberedFrom (first : String) (rows : Nat) : List Command :=
  .createWith "t" [⟨"n", .number, 16, false, false, true⟩] ::
    .insert "t" (.positional [.str first]) :: List.replicate rows (.insert "t" (.positional []))

/-- `2^53` is counted, and no number after it. -/
theorem goesOn_of_reachable_limit :
    let d : ColumnDecl := ⟨"n", .number, 16, false, false, true⟩
    let x := Binary64.ofInt 9007199254740992
    ∃ db t, Database.new .default = .ok db ∧
      (db.run (numberedFrom "9007199254740991" 1)).table? "t" = some t ∧
      (t.schema.columns = [d] ∧ t.rowCount = 2 ∧ t.value? 1 0 = some (.number x) ∧
        (t.insert (.positional [])).2 = .error (.overflow "n" "9007199254740992")) ∧
      x.IsWhole 9007199254740992 ∧ (RowInput.positional []).LeavesOut t.schema 0 ∧
      t.Passes (.positional []) 0 ∧ t.GoesOn (.positional []) 0 d x 9007199254740992 :=
  Database.exists_table_of_run
    (fun t => decide (t.schema.columns = [⟨"n", .number, 16, false, false, true⟩] ∧ t.rowCount = 2 ∧
      t.value? 1 0 = some (.number (Binary64.ofInt 9007199254740992)) ∧
      (t.insert (.positional [])).2 = .error (.overflow "n" "9007199254740992")))
    (by decide +kernel) fun _ t hdb ht htest => by
      have htest := of_decide_eq_true htest
      have hx : (Binary64.ofInt 9007199254740992).IsWhole 9007199254740992 :=
        ⟨by decide +kernel, by decide +kernel⟩
      have hout : (RowInput.positional []).LeavesOut t.schema 0 := .inl rfl
      have hpasses : t.Passes (.positional []) 0 := by
        refine ⟨none, [none], [], ?_, rfl, rfl⟩
        rw [RowInput.supplied, Schema.size, htest.1]
        rfl
      have ht := ((Database.governed_new hdb).run _).tables _ t ht
      have hd : t.schema.columns[0]? = some ⟨"n", .number, 16, false, false, true⟩ := by rw [htest.1]; rfl
      exact ⟨htest, hx, hout, hpasses,
        goesOn_of_reachable ht hd ⟨rfl, rfl, rfl⟩ htest.2.1 htest.2.2.1 hx hout hpasses⟩

/-- The row after `2^53 + 2` is taken in with `2^53 + 4`. -/
theorem skipped_number : ∃ db t, Database.new .default = .ok db ∧
    (db.run (numberedFrom "9007199254740994" 0)).table? "t" = some t ∧
    t.schema.columns = [⟨"n", .number, 16, false, false, true⟩] ∧ t.rowCount = 1 ∧
    t.value? 0 0 = some (.number (Binary64.ofInt 9007199254740994)) ∧
    (t.insert (.positional [])).2 = .ok () ∧
    (t.insert (.positional [])).1.value? 1 0 = some (.number (Binary64.ofInt 9007199254740996)) ∧
    (Binary64.ofInt 9007199254740994).signedUnits = 9007199254740994 * Binary64.unitsOfOne ∧
    (Binary64.ofInt 9007199254740996).signedUnits = 9007199254740996 * Binary64.unitsOfOne :=
  Database.exists_table_of_run
    (fun t => decide (t.schema.columns = [⟨"n", .number, 16, false, false, true⟩] ∧ t.rowCount = 1 ∧
      t.value? 0 0 = some (.number (Binary64.ofInt 9007199254740994)) ∧
      (t.insert (.positional [])).2 = .ok () ∧
      (t.insert (.positional [])).1.value? 1 0 = some (.number (Binary64.ofInt 9007199254740996)) ∧
      (Binary64.ofInt 9007199254740994).signedUnits = 9007199254740994 * Binary64.unitsOfOne ∧
      (Binary64.ofInt 9007199254740996).signedUnits = 9007199254740996 * Binary64.unitsOfOne))
    (by decide +kernel) fun _ _ _ _ htest => of_decide_eq_true htest

end Table

end TypedTables
