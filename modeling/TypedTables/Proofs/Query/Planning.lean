import TypedTables.Proofs.Query.Faults

/-!
# Planned queries

Which queries have a plan (`Query.Valid`), and what the plan holds (`Query.Plan.Follows`). Any other query
is refused for its first fault (`Query.Plan.ofQuery_outcomes`).
-/

namespace TypedTables

open Text

namespace Query

/-! ## Queries without fault -/

/-- Every part of the query is as it should be. -/
structure Valid (s : Schema) (q : Query) : Prop where
  known : ∀ key ∈ q.keys.getD [], key ∈ s.names
  distinct : (q.keys.getD []).Nodup
  order : ∀ entry ∈ q.order, ∃ key, SortKey.WrittenAs entry key ∧ key.name ∈ s.names
  clause : ∃ clause, WhereClause.read s q.clause = .ok clause
  limit : ∀ n, q.limit = some n → 0 ≤ n.toInt
  method : ∀ name, q.method = some name → ∃ m : Reduction, sameIgnoringCase m.name name = true
  unsorted : q.AsksFor .count → q.order = []

namespace Plan

variable {s : Schema} {q : Query} {plan plan' : Plan} {e : QueryError}

/-- The columns to return: those of the keys, in their order, or all of them if there are no keys. -/
inductive Returns (s : Schema) : List String → Option (List Nat) → Prop where
  | all : Returns s [] none
  | listed {keys : List String} {is : List Nat} (asked : keys ≠ [])
    (positions : List.Forall₂ (fun key i => s.position? key = some i) keys is) :
    Returns s keys (some is)

/-- The plan holds what the query says, with positions for names and meanings for words. -/
structure Follows (s : Schema) (q : Query) (plan : Plan) : Prop where
  projection : Returns s (q.keys.getD []) plan.projection
  order : ∃ keys, List.Forall₂ SortKey.WrittenAs q.order keys ∧
    List.Forall₂ (SortsBy s) keys plan.order
  clause : WhereClause.read s q.clause = .ok plan.clause
  limit : plan.limit = q.limit.map (·.toInt.toNat)
  reduction : ∀ m, plan.reduction = some m ↔ q.AsksFor m

/-! ## No fault -/

theorem forall_not_firstFault_keys {keys : List String} :
    (∀ e, ¬FirstFault (KeyFault s) keys e) ↔ (∀ key ∈ keys, key ∈ s.names) ∧ keys.Nodup := by
  rw [forall_not_firstFault]
  constructor
  · intro h
    have hkeys : ∀ before key after, keys = before ++ key :: after →
        key ∈ s.names ∧ key ∉ before := by
      intro before key after hsplit
      have hknown : key ∈ s.names :=
        Classical.byContradiction fun hmissing => h before key after hsplit _ (.unknown hmissing)
      exact ⟨hknown, fun hagain => h before key after hsplit _ (.duplicate hknown hagain)⟩
    refine ⟨fun key hkey => ?_, ?_⟩
    · obtain ⟨before, after, hsplit⟩ := List.append_of_mem hkey
      exact (hkeys before key after hsplit).1
    · clear h
      induction keys using List.reverseRecOn with
      | nil => exact .nil
      | append_singleton keys key ih =>
        have hlast := (hkeys keys key [] rfl).2
        refine List.nodup_append'.mpr ⟨ih fun before key' after hsplit => ?_, List.nodup_singleton key,
          List.disjoint_singleton.mpr hlast⟩
        exact hkeys before key' (after ++ [key]) (by rw [hsplit]; simp)
  · rintro ⟨hknown, hdistinct⟩ before key after rfl e (missing | ⟨-, again⟩)
    · exact missing (hknown key (by simp))
    · exact (List.disjoint_of_nodup_append hdistinct) again (by simp)

theorem forall_not_entryFault {entry : String} : (∀ e, ¬EntryFault s entry e) ↔
    ∃ key, SortKey.WrittenAs entry key ∧ key.name ∈ s.names := by
  constructor
  · intro h
    rcases writtenAs_or_misdirected entry with ⟨key, hkey⟩ | hmis
    · exact ⟨key, hkey, Classical.byContradiction fun hmissing => h _ (.unknown hkey hmissing)⟩
    · exact absurd (.direction hmis) (h _)
  · rintro ⟨key, hkey, hknown⟩ e hfault
    obtain ⟨i, hi⟩ := exists_position?_iff.mpr hknown
    rw [← readOrderEntry_eq_error, readOrderEntry_of_writtenAs hkey hi] at hfault
    cases hfault

/-- The queries without fault are those of which every part is as it should be. -/
theorem valid_iff : q.Valid s ↔ ∀ e, ¬q.Refused s e := by
  have hall : (∀ e, ¬q.Refused s e) ↔ ∀ part e, ¬PartFault s q part e := by
    refine forall_not_firstFault.trans ⟨fun h part => ?_, fun h _ part _ _ => h part⟩
    have hpart : part ∈ Part.all := by cases part <;> simp [Part.all]
    obtain ⟨before, after, hsplit⟩ := List.append_of_mem hpart
    exact h before part after hsplit
  rw [hall]
  constructor
  · rintro h part e (hkeys | hentry | hclause | ⟨given, negative⟩ | ⟨given, other⟩ | ⟨count, sorted⟩)
    · exact forall_not_firstFault_keys.mpr ⟨h.known, h.distinct⟩ _ hkeys
    · obtain ⟨before, entry, after, hsplit, hfault, -⟩ := hentry
      exact forall_not_entryFault.mpr (h.order entry (by simp [hsplit])) _ hfault
    · obtain ⟨clause, hread⟩ := h.clause
      rw [hread] at hclause
      cases hclause
    · exact absurd (h.limit _ given) (by omega)
    · obtain ⟨m, hm⟩ := h.method _ given
      rw [other m] at hm
      cases hm
    · exact sorted (h.unsorted count)
  · intro h
    obtain ⟨hknown, hdistinct⟩ := forall_not_firstFault_keys.mp fun e he => h .keys e (.keys he)
    refine
      { known := hknown
        distinct := hdistinct
        order := fun entry hentry => ?_
        clause := ?_
        limit := fun n hn => ?_
        method := fun name hname => ?_
        unsorted := fun hcount => ?_ }
    · obtain ⟨before, after, hsplit⟩ := List.append_of_mem hentry
      refine forall_not_entryFault.mp ?_
      exact forall_not_firstFault.mp (fun e he => h .order e (.order he)) before entry after hsplit
    · cases hread : WhereClause.read s q.clause with
      | ok clause => exact ⟨clause, rfl⟩
      | error e => exact absurd (.clause hread) (h .clause _)
    · exact Int.not_lt.mp fun hnegative => h .limit _ (.limit hn hnegative)
    · refine Classical.byContradiction fun hother => h .method _ (.method hname fun m => ?_)
      exact Bool.eq_false_iff.mpr fun hm => hother ⟨m, hm⟩
    · exact Classical.byContradiction fun hsorted => h .method _ (.sorted hcount hsorted)

/-! ## Plans of valid queries -/

theorem returns_of_readProjection {projection : Option (List Nat)}
    (h : readProjection s q.keys = .ok projection) : Returns s (q.keys.getD []) projection := by
  revert h
  rcases q.keys with _ | (_ | ⟨key, keys⟩)
  · rintro ⟨⟩
    exact .all
  · rintro ⟨⟩
    exact .all
  · intro h
    rw [readProjection] at h
    · obtain ⟨is, his, h⟩ := Outcome.bind_eq_ok.mp h
      cases h
      exact .listed (by simp) (locateAll_eq_ok his)
    · simp

theorem readLimit_eq_ok {limit : Option Nat} (h : readLimit q.limit = .ok limit) :
    limit = q.limit.map (·.toInt.toNat) := by
  cases hn : q.limit with
  | none =>
    rw [hn] at h
    cases h
    rfl
  | some n =>
    rw [hn, readLimit] at h
    split at h
    · cases h
      rfl
    · cases h

theorem follows_of_ofQuery (h : ofQuery s q = .ok plan) : plan.Follows s q := by
  have hplan := ofQuery_eq_ok h
  exact
    { projection := returns_of_readProjection hplan.projection
      order := readOrder_eq_ok hplan.order
      clause := hplan.clause
      limit := readLimit_eq_ok hplan.limit
      reduction := fun _ => reduction_eq_some_iff hplan.reduction }

theorem Returns.unique {keys : List String} {projection projection' : Option (List Nat)}
    (h : Returns s keys projection) (h' : Returns s keys projection') : projection = projection' := by
  cases h with
  | all =>
    cases h' with
    | all => rfl
    | listed asked => exact absurd rfl asked
  | listed asked positions =>
    cases h' with
    | all => exact absurd rfl asked
    | listed _ positions' =>
      have hright : Relator.RightUnique fun key i => s.position? key = some i := fun _ _ _ hi hi' =>
        Option.some.inj (hi.symm.trans hi')
      rw [List.right_unique_forall₂' hright positions positions']

theorem readOrder_of_writtenAs {entries : List String} {keys : List SortKey} {order : List (Nat × Direction)}
    (hwritten : List.Forall₂ SortKey.WrittenAs entries keys)
    (hsorts : List.Forall₂ (SortsBy s) keys order) : entries.mapM (readOrderEntry s) = .ok order := by
  rw [Outcome.mapM_eq_ok]
  induction hwritten generalizing order with
  | nil =>
    cases hsorts
    exact .nil
  | cons hentry _ ih =>
    cases hsorts with
    | @cons key column _ order hkey horder =>
      refine .cons ?_ (ih horder)
      rw [readOrderEntry_of_writtenAs hentry hkey.position, hkey.direction]

theorem Follows.unique (h : plan.Follows s q) (h' : plan'.Follows s q) : plan = plan' := by
  obtain ⟨projection, order, clause, limit, reduction⟩ := plan
  obtain ⟨projection', order', clause', limit', reduction'⟩ := plan'
  have hprojection : projection = projection' := h.projection.unique h'.projection
  have horder : order = order' := by
    obtain ⟨keys, hwritten, hsorts⟩ := h.order
    obtain ⟨keys', hwritten', hsorts'⟩ := h'.order
    exact Except.ok.inj ((readOrder_of_writtenAs hwritten hsorts).symm.trans (readOrder_of_writtenAs hwritten' hsorts'))
  have hclause : clause = clause' := Except.ok.inj (h.clause.symm.trans h'.clause)
  have hlimit : limit = limit' := h.limit.trans h'.limit.symm
  have hreduction : reduction = reduction' := Option.ext fun m =>
    (h.reduction m).trans (h'.reduction m).symm
  rw [hprojection, horder, hclause, hlimit, hreduction]

theorem exists_ofQuery_iff : (∃ plan, ofQuery s q = .ok plan) ↔ q.Valid s := by
  rw [valid_iff]
  simp only [← ofQuery_eq_error]
  cases ofQuery s q <;> simp

/-- A query is planned if and only if it is valid; the plan is the one that follows the query. Any other
query is refused for its first fault. -/
theorem ofQuery_outcomes (s : Schema) (q : Query) :
    ((∃ plan, ofQuery s q = .ok plan) ↔ q.Valid s) ∧
      (∀ plan, ofQuery s q = .ok plan ↔ q.Valid s ∧ plan.Follows s q) ∧
      ∀ e, ofQuery s q = .error e ↔ q.Refused s e := by
  refine ⟨exists_ofQuery_iff, fun plan => ⟨fun h => ?_, fun h => ?_⟩, fun e => ofQuery_eq_error⟩
  · exact ⟨exists_ofQuery_iff.mp ⟨plan, h⟩, follows_of_ofQuery h⟩
  · obtain ⟨hvalid, hfollows⟩ := h
    obtain ⟨plan', hplan'⟩ := exists_ofQuery_iff.mpr hvalid
    rw [hplan', (follows_of_ofQuery hplan').unique hfollows]

end Plan

end Query

end TypedTables
