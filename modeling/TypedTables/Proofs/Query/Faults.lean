import TypedTables.Proofs.FirstFault
import TypedTables.Proofs.Schema.Addressing

/-!
# Faults of queries

What can be wrong with the parts of a query (`Query.PartFault`). A query that has no plan is refused for the
first of its parts that is at fault, and there for the first key or order entry that is (`Query.Refused`).
Keys are compared by position and reported by name; a position belongs to one name.
-/

namespace TypedTables

open Text

namespace Query

/-! ## Faults -/

/-- The parts of a query in the order in which they are looked at. -/
inductive Part where
  | keys
  | order
  | clause
  | limit
  | method

def Part.all : List Part := [keys, order, clause, limit, method]

inductive KeyFault (s : Schema) (before : List String) (key : String) : QueryError → Prop where
  | unknown (missing : key ∉ s.names) : KeyFault s before key (.unknownKey key)
  | duplicate (known : key ∈ s.names) (again : key ∈ before) :
    KeyFault s before key (.duplicateKey key)

/-- Behind the first colon of the order entry there is no word for a direction. -/
def Misdirected (entry : String) : Prop :=
  ∃ name word, entry.toList = name ++ ':' :: word ∧ ':' ∉ name ∧
    ∀ d : Direction, sameIgnoringCase d.word (trimmed word) = false

inductive EntryFault (s : Schema) (entry : String) : QueryError → Prop where
  | direction (misdirected : Misdirected entry) : EntryFault s entry (.invalidOrder entry)
  | unknown {key : SortKey} (written : SortKey.WrittenAs entry key) (missing : key.name ∉ s.names) :
    EntryFault s entry (.unknownKey key.name)

inductive PartFault (s : Schema) (q : Query) : Part → QueryError → Prop where
  | keys {e : QueryError} (first : FirstFault (KeyFault s) (q.keys.getD []) e) : PartFault s q .keys e
  | order {e : QueryError} (first : FirstFault (fun _ => EntryFault s) q.order e) :
    PartFault s q .order e
  | clause {e : ConditionError} (refused : WhereClause.read s q.clause = .error e) :
    PartFault s q .clause (.condition e)
  | limit {n : Int64} (given : q.limit = some n) (negative : n.toInt < 0) :
    PartFault s q .limit (.invalidLimit (toString n.toInt))
  | method {name : String} (given : q.method = some name)
    (other : ∀ m : Reduction, sameIgnoringCase m.name name = false) :
    PartFault s q .method (.unknownMethod name)
  | sorted (count : q.AsksFor .count) (order : q.order ≠ []) : PartFault s q .method .countWithOrder

def Refused (s : Schema) (q : Query) (e : QueryError) : Prop :=
  FirstFault (fun _ => PartFault s q) Part.all e

namespace Plan

variable {s : Schema} {q : Query} {e : QueryError}

/-! ## Keys -/

theorem position?_inj {key key' : String} {i : Nat} (h : s.position? key = some i)
    (h' : s.position? key' = some i) : key = key' :=
  Option.some.inj ((Schema.names_getElem?_of_position? h).symm.trans
    (Schema.names_getElem?_of_position? h'))

theorem exists_position?_iff {key : String} : (∃ i, s.position? key = some i) ↔ key ∈ s.names := by
  rw [← Option.isSome_iff_exists, ← Option.ne_none_iff_isSome, ne_eq, Schema.position?_eq_none_iff,
    not_not]

theorem locate_eq_error {key : String} :
    locate s key = .error e ↔ key ∉ s.names ∧ e = .unknownKey key := by
  rw [← Schema.position?_eq_none_iff, locate]
  cases s.position? key <;> simp [eq_comm]

section LocateAll

variable {key : String} {keys seen : List String} {earlier : List Nat} {i : Nat}

theorem locateAll_unknown (hi : s.position? key = none) :
    locateAll s earlier (key :: keys) = .error (.unknownKey key) := by
  rw [locateAll, locate, hi]
  rfl

theorem locateAll_again (hi : s.position? key = some i) (hearlier : i ∈ earlier) :
    locateAll s earlier (key :: keys) = .error (.duplicateKey key) := by
  rw [locateAll, locate, hi, Outcome.ok_bind, if_pos (List.contains_iff_mem.mpr hearlier)]
  rfl

theorem locateAll_new (hi : s.position? key = some i) (hearlier : i ∉ earlier) :
    locateAll s earlier (key :: keys) = (locateAll s (i :: earlier) keys).map (i :: ·) := by
  rw [locateAll, locate, hi, Outcome.ok_bind, if_neg fun h => hearlier (List.contains_iff_mem.mp h)]
  cases locateAll s (i :: earlier) keys <;> rfl

/-- The keys are located, or refused for the first one at fault. The ones seen before them are known by
their positions. -/
theorem locateAll_eq_error
    (hseen : ∀ key i, s.position? key = some i → (i ∈ earlier ↔ key ∈ seen)) :
    locateAll s earlier keys = .error e ↔
      FirstFault (fun before => KeyFault s (seen ++ before)) keys e := by
  induction keys generalizing seen earlier with
  | nil => exact iff_of_false (fun h => by cases h) not_firstFault_nil
  | cons key keys ih =>
    rw [firstFault_cons, List.append_nil]
    cases hi : s.position? key with
    | none =>
      have hmissing := Schema.position?_eq_none_iff.mp hi
      have hfault : KeyFault s seen key (.unknownKey key) := .unknown hmissing
      rw [locateAll_unknown hi]
      constructor
      · rintro ⟨⟩
        exact .inl hfault
      · rintro ((_ | ⟨known, -⟩) | ⟨hnone, -⟩)
        · rfl
        · exact absurd known hmissing
        · exact absurd hfault (hnone _)
    | some i =>
      have hknown := exists_position?_iff.mp ⟨i, hi⟩
      have hmem := hseen key i hi
      by_cases hagain : key ∈ seen
      · have hfault : KeyFault s seen key (.duplicateKey key) := .duplicate hknown hagain
        rw [locateAll_again hi (hmem.mpr hagain)]
        constructor
        · rintro ⟨⟩
          exact .inl hfault
        · rintro ((missing | _) | ⟨hnone, -⟩)
          · exact absurd hknown missing
          · rfl
          · exact absurd hfault (hnone _)
      · have hfault : ∀ e, ¬KeyFault s seen key e := by
          rintro e (missing | ⟨-, again⟩)
          · exact missing hknown
          · exact hagain again
        have hnext : ∀ key' i', s.position? key' = some i' →
            (i' ∈ i :: earlier ↔ key' ∈ seen ++ [key]) := by
          intro key' i' hi'
          have hsame : i' = i ↔ key' = key := by
            constructor
            · rintro rfl
              exact position?_inj hi' hi
            · rintro rfl
              exact Option.some.inj (hi'.symm.trans hi)
          rw [List.mem_cons, List.mem_append, List.mem_singleton, hseen key' i' hi', hsame, or_comm]
        have hrest := ih hnext
        simp only [List.append_assoc, List.singleton_append] at hrest
        rw [locateAll_new hi fun h => hagain (hmem.mp h), Outcome.map_eq_error, hrest]
        exact ⟨fun h => .inr ⟨hfault, h⟩, fun h => (h.resolve_left (hfault e)).2⟩

end LocateAll

theorem readProjection_eq_error :
    readProjection s q.keys = .error e ↔ PartFault s q .keys e := by
  have hpart : PartFault s q .keys e ↔ FirstFault (KeyFault s) (q.keys.getD []) e := by
    refine ⟨fun h => ?_, .keys⟩
    cases h
    assumption
  rw [hpart]
  rcases q.keys with _ | (_ | ⟨key, keys⟩)
  · exact iff_of_false (fun h => by cases h) not_firstFault_nil
  · exact iff_of_false (fun h => by cases h) not_firstFault_nil
  · have hseen : ∀ key i, s.position? key = some i → (i ∈ ([] : List Nat) ↔ key ∈ ([] : List String)) :=
      fun _ _ _ => by simp
    have hall : locateAll s [] (key :: keys) = .error e ↔ FirstFault (KeyFault s) (key :: keys) e :=
      locateAll_eq_error hseen
    have hread : readProjection s (some (key :: keys)) = (locateAll s [] (key :: keys)).map some := by
      rw [readProjection]
      · cases locateAll s [] (key :: keys) <;> rfl
      · simp
    rw [hread, Outcome.map_eq_error, hall]
    rfl

/-! ## Order entries -/

theorem ofWord?_eq_none {word : String} :
    Direction.ofWord? word = none ↔ ∀ d : Direction, sameIgnoringCase d.word word = false :=
  find?_sameIgnoringCase_eq_none fun d => by cases d <;> simp [Direction.all]

theorem writtenAs_or_misdirected (entry : String) :
    (∃ key, SortKey.WrittenAs entry key) ∨ Misdirected entry := by
  by_cases hcolon : ':' ∈ entry.toList
  · obtain ⟨name, word, hentry, hname⟩ := List.eq_append_cons_of_mem hcolon
    cases hword : Direction.ofWord? (trimmed word) with
    | some d => exact .inl ⟨_, .directed hentry hname (ofWord?_eq_some hword)⟩
    | none => exact .inr ⟨name, word, hentry, hname, ofWord?_eq_none.mp hword⟩
  · exact .inl ⟨_, .plain hcolon⟩

theorem readOrderEntry_of_misdirected {entry : String} (h : Misdirected entry) :
    readOrderEntry s entry = .error (.invalidOrder entry) := by
  obtain ⟨name, word, hentry, hname, hword⟩ := h
  have hall : ∀ c ∈ name, (c != ':') = true := fun c hc =>
    bne_iff_ne.mpr fun heq => hname (heq ▸ hc)
  have hstop : Stops (· != ':') (':' :: word) := stops_cons.mpr (by decide)
  rw [readOrderEntry, hentry, takeWhile_run hall hstop, dropWhile_run hall hstop]
  simp only [ofWord?_eq_none.mpr hword]
  rfl

theorem readOrderEntry_eq_error {entry : String} :
    readOrderEntry s entry = .error e ↔ EntryFault s entry e := by
  constructor
  · intro h
    rcases writtenAs_or_misdirected entry with ⟨key, hkey⟩ | hmis
    · rw [readOrderEntry_eq_map hkey, Outcome.map_eq_error, locate_eq_error] at h
      obtain ⟨hmissing, rfl⟩ := h
      exact .unknown hkey hmissing
    · rw [readOrderEntry_of_misdirected hmis] at h
      cases h
      exact .direction hmis
  · rintro (hmis | ⟨hkey, hmissing⟩)
    · exact readOrderEntry_of_misdirected hmis
    · rw [readOrderEntry_eq_map hkey, Outcome.map_eq_error, locate_eq_error]
      exact ⟨hmissing, rfl⟩

theorem readOrder_eq_error :
    q.order.mapM (readOrderEntry s) = .error e ↔ PartFault s q .order e := by
  simp only [Outcome.mapM_eq_error, readOrderEntry_eq_error]
  refine ⟨.order, fun h => ?_⟩
  cases h
  assumption

/-! ## The other parts -/

theorem readClause_eq_error :
    readClause s q.clause = .error e ↔ PartFault s q .clause e := by
  constructor
  · intro h
    rw [readClause] at h
    cases hread : WhereClause.read s q.clause with
    | ok clause =>
      rw [hread] at h
      cases h
    | error e' =>
      rw [hread] at h
      cases h
      exact .clause hread
  · rintro ⟨⟩
    next hread => rw [readClause, hread]; rfl

theorem readLimit_eq_error : readLimit q.limit = .error e ↔ PartFault s q .limit e := by
  constructor
  · intro h
    cases hn : q.limit with
    | none =>
      rw [hn] at h
      cases h
    | some n =>
      rw [hn, readLimit] at h
      split at h
      · cases h
      · cases h
        exact .limit hn (by omega)
  · rintro ⟨⟩
    next n given negative => rw [given, readLimit, if_neg (by omega)]

theorem ofName?_eq_none {word : String} :
    Reduction.ofName? word = none ↔ ∀ m : Reduction, sameIgnoringCase m.name word = false :=
  find?_sameIgnoringCase_eq_none fun m => by cases m <;> simp [Reduction.all]

theorem ofName?_of_sameIgnoringCase {m : Reduction} {word : String}
    (h : sameIgnoringCase m.name word = true) : Reduction.ofName? word = some m :=
  find?_of_sameIgnoringCase (Reduction.ofName?_name m) h

theorem reduction_eq_some_iff {reduction : Option Reduction} {m : Reduction}
    (h : readReduction q.method = .ok reduction) : reduction = some m ↔ q.AsksFor m := by
  constructor
  · rintro rfl
    rcases readReduction_eq_ok h with ⟨hnone, -⟩ | ⟨m', hsome, hasks⟩
    · cases hnone
    · cases hsome
      exact hasks
  · rintro ⟨word, hword, hsame⟩
    rw [hword, readReduction, ofName?_of_sameIgnoringCase hsame] at h
    cases h
    rfl

theorem readReduction_eq_error : readReduction q.method = .error e ↔
    ∃ name, q.method = some name ∧ (∀ m : Reduction, sameIgnoringCase m.name name = false) ∧
      e = .unknownMethod name := by
  constructor
  · intro h
    cases hname : q.method with
    | none =>
      rw [hname] at h
      cases h
    | some name =>
      rw [hname, readReduction] at h
      split at h
      · cases h
      · next hnone =>
        cases h
        exact ⟨name, rfl, ofName?_eq_none.mp hnone, rfl⟩
  · rintro ⟨name, hname, hother, rfl⟩
    rw [hname, readReduction, ofName?_eq_none.mpr hother]

/-! ## The first fault -/

theorem methodFault_iff : PartFault s q .method e ↔ readReduction q.method = .error e ∨
    (q.AsksFor .count ∧ q.order ≠ []) ∧ e = .countWithOrder := by
  rw [readReduction_eq_error]
  constructor
  · rintro (_ | _ | _ | _ | ⟨given, other⟩ | ⟨count, sorted⟩)
    · exact .inl ⟨_, given, other, rfl⟩
    · exact .inr ⟨⟨count, sorted⟩, rfl⟩
  · rintro (⟨name, given, other, rfl⟩ | ⟨⟨count, sorted⟩, rfl⟩)
    · exact .method given other
    · exact .sorted count sorted

theorem not_asksFor_of_error {m : Reduction} (h : readReduction q.method = .error e) :
    ¬q.AsksFor m := by
  rintro ⟨word, hword, hsame⟩
  obtain ⟨name, hname, hother, -⟩ := readReduction_eq_error.mp h
  obtain rfl := Option.some.inj (hword.symm.trans hname)
  rw [hother m] at hsame
  cases hsame

theorem ofQuery_eq_error : ofQuery s q = .error e ↔ q.Refused s e := by
  refine Outcome.bind_eq_firstFault (fun _ => readProjection_eq_error) (fun _ _ e => ?_) e
  refine Outcome.bind_eq_firstFault (fun _ => readOrder_eq_error) (fun order horder e => ?_) e
  refine Outcome.bind_eq_firstFault (fun _ => readClause_eq_error) (fun _ _ e => ?_) e
  refine Outcome.bind_eq_firstFault (fun _ => readLimit_eq_error) (fun _ _ e => ?_) e
  have hsorted : q.order ≠ [] ↔ order ≠ [] := by
    rw [← List.length_pos_iff, (Outcome.mapM_eq_ok.mp horder).length_eq, List.length_pos_iff]
  rw [firstFault_cons, or_iff_left (fun h => not_firstFault_nil h.2), methodFault_iff]
  cases hreduction : readReduction q.method with
  | error e' => simp [not_asksFor_of_error hreduction]
  | ok reduction =>
    rw [← reduction_eq_some_iff hreduction, hsorted, Outcome.ok_bind]
    dsimp only
    split
    · next hcount =>
      constructor
      · rintro ⟨⟩
        exact .inr ⟨hcount, rfl⟩
      · rintro (h | ⟨-, rfl⟩)
        · cases h
        · rfl
    · next hcount =>
      refine iff_of_false (fun h => by cases h) ?_
      rintro (h | ⟨h, -⟩)
      · cases h
      · exact hcount h

end Plan

end Query

end TypedTables
