import Mathlib.Computability.Language
import Mathlib.Tactic.Abel
import TypedTables.Proofs.Condition.Segments

/-!
# The grammar of where clauses

Which lists of items are where clauses, and what is wrong with the others. An item is one of the
join words or else a condition. The lists are those of a regular language of join words and
conditions (`clauses`) of which every condition can be read; a list that is none has a first item
that cannot stand where it does (`Fault`), or ends with a join word.

The reader is in a state of that language: whether there has been a condition, and what the item
before was (`PartialClause.Follows`).
-/

namespace TypedTables

open Text
open scoped Computability

/-- The join word that an item is, in any case of its letters and with blanks around it or not. An
item that is none is a condition. -/
def joinOf? (item : String) : Option JoinWord :=
  let word := lower (trimmed item.toList)
  if word = "and" then some .and
  else if word = "or" then some .or
  else if word = "not" then some .not
  else none

theorem sameIgnoringCase_eq {word t : String} (h : lower word = t) (text : String) :
    sameIgnoringCase word text = decide (lower text = t) := by
  rw [sameIgnoringCase, h, Bool.eq_iff_iff, beq_iff_eq, decide_eq_true_iff, eq_comm]

theorem ofWord?_eq_joinOf? (item : String) :
    JoinWord.ofWord? (trimmed item.toList) = joinOf? item := by
  have hand := sameIgnoringCase_eq (show lower JoinWord.and.word = "and" by decide +kernel)
  have hor := sameIgnoringCase_eq (show lower JoinWord.or.word = "or" by decide +kernel)
  have hnot := sameIgnoringCase_eq (show lower JoinWord.not.word = "not" by decide +kernel)
  simp only [JoinWord.ofWord?, joinOf?, JoinWord.every, List.find?_cons, List.find?_nil, hand, hor,
    hnot]
  by_cases h₁ : lower (trimmed item.toList) = "and"
  · rw [decide_eq_true h₁, if_pos h₁]
  · rw [decide_eq_false h₁, if_neg h₁]
    by_cases h₂ : lower (trimmed item.toList) = "or"
    · rw [decide_eq_true h₂, if_pos h₂]
    · rw [decide_eq_false h₂, if_neg h₂]
      by_cases h₃ : lower (trimmed item.toList) = "not"
      · rw [decide_eq_true h₃, if_pos h₃]
      · rw [decide_eq_false h₃, if_neg h₃]

/-! ## Lists of join words and conditions -/

/-- A list of items, each by the join word that it is; `none` is a condition. -/
abbrev Kinds := List (Option JoinWord)

def only (k : Option JoinWord) : Language (Option JoinWord) := {[k]}

/-- What may stand between two conditions. -/
def links : Language (Option JoinWord) :=
  1 + only (some .and) + only (some .or) + only (some .not) +
    only (some .and) * only (some .not)

def moreConditions : Language (Option JoinWord) := (links * only none)∗

/-- No item, or conditions with join words between them, the first after `NOT` or not. -/
def clauses : Language (Option JoinWord) :=
  1 + (1 + only (some .not)) * only none * moreConditions

variable {k : Option JoinWord} {w : Kinds}

theorem nil_notMem_only_mul (k : Option JoinWord) (l : Language (Option JoinWord)) :
    [] ∉ only k * l := by
  rw [Language.mem_mul]
  rintro ⟨a, ha, b, -, h⟩
  cases ha
  cases h

theorem cons_mem_only_mul {k' : Option JoinWord} {l : Language (Option JoinWord)} :
    k :: w ∈ only k' * l ↔ k = k' ∧ w ∈ l := by
  rw [Language.mem_mul]
  constructor
  · rintro ⟨a, ha, b, hb, h⟩
    cases ha
    cases h
    exact ⟨rfl, hb⟩
  · rintro ⟨rfl, hw⟩
    exact ⟨[k], rfl, w, hw, rfl⟩

def conditions : Language (Option JoinWord) := only none * moreConditions

def afterAnd : Language (Option JoinWord) := conditions + only (some .not) * conditions

theorem moreConditions_eq : moreConditions = 1 + (conditions + only (some .and) * afterAnd +
    only (some .or) * conditions + only (some .not) * conditions) := by
  conv_lhs => rw [moreConditions, ← Language.one_add_self_mul_kstar_eq_kstar, mul_assoc]
  change 1 + links * conditions = _
  rw [links, afterAnd]
  simp only [add_mul, one_mul, mul_add, mul_assoc]
  abel

theorem clauses_eq : clauses = 1 + (conditions + only (some .not) * conditions) := by
  rw [clauses, mul_assoc]
  change 1 + (1 + only (some .not)) * conditions = _
  rw [add_mul, one_mul]

theorem cons_mem_conditions : k :: w ∈ conditions ↔ k = none ∧ w ∈ moreConditions :=
  cons_mem_only_mul

theorem cons_mem_afterAnd :
    k :: w ∈ afterAnd ↔ k = none ∧ w ∈ moreConditions ∨ k = some .not ∧ w ∈ conditions := by
  simp only [afterAnd, Language.mem_add, cons_mem_conditions, cons_mem_only_mul]

theorem cons_mem_moreConditions : k :: w ∈ moreConditions ↔
    ((k = none ∧ w ∈ moreConditions ∨ k = some .and ∧ w ∈ afterAnd) ∨
      k = some .or ∧ w ∈ conditions) ∨ k = some .not ∧ w ∈ conditions := by
  have hone : k :: w ∉ (1 : Language (Option JoinWord)) := fun h => by cases h
  conv_lhs => rw [moreConditions_eq]
  simp only [Language.mem_add, hone, cons_mem_conditions, cons_mem_only_mul, false_or]

theorem cons_mem_clauses :
    k :: w ∈ clauses ↔ k = none ∧ w ∈ moreConditions ∨ k = some .not ∧ w ∈ conditions := by
  have hone : k :: w ∉ (1 : Language (Option JoinWord)) := fun h => by cases h
  simp only [clauses_eq, Language.mem_add, hone, cons_mem_conditions, cons_mem_only_mul, false_or]

/-! ## One item after the other -/

/-- An item may come next, if there has been a condition or not (`seen`) and if the item before is a
join word (`pending`) or not. -/
def allows : (seen : Bool) → (pending : Option JoinWord) → Option JoinWord → Bool
  | _, _, none => true
  | _, none, some .not => true
  | _, some .and, some .not => true
  | seen, none, some _ => seen
  | _, some _, some _ => false

def following (seen : Bool) : (pending : Option JoinWord) → Language (Option JoinWord)
  | none => if seen then moreConditions else clauses
  | some .and => afterAnd
  | some _ => conditions

theorem nil_mem_following {seen : Bool} {pending : Option JoinWord} :
    [] ∈ following seen pending ↔ pending = none := by
  have hcond : [] ∉ conditions := nil_notMem_only_mul none _
  have hand : [] ∉ afterAnd := fun h => h.elim hcond (nil_notMem_only_mul _ _)
  rcases pending with _ | (_ | _ | _)
  · have hmore : [] ∈ moreConditions := Language.nil_mem_kstar _
    have hclauses : [] ∈ clauses := by rw [clauses_eq]; exact .inl rfl
    cases seen <;> simp [following, hmore, hclauses]
  all_goals simp [following, hcond, hand]

theorem cons_mem_following {seen : Bool} {pending : Option JoinWord} :
    k :: w ∈ following seen pending ↔
      allows seen pending k = true ∧ w ∈ following (seen || k.isNone) k := by
  rcases pending with _ | (_ | _ | _)
  · cases seen
    · rw [following, if_neg Bool.false_ne_true, cons_mem_clauses]
      rcases k with _ | (_ | _ | _) <;> simp [allows, following]
    · rw [following, if_pos rfl, cons_mem_moreConditions]
      rcases k with _ | (_ | _ | _) <;> simp [allows, following]
  · rw [following, cons_mem_afterAnd]
    rcases k with _ | (_ | _ | _) <;> simp [allows, following]
  · rw [following, cons_mem_conditions]
    · rcases k with _ | (_ | _ | _) <;> simp [allows, following]
    · simp
  · rw [following, cons_mem_conditions]
    · rcases k with _ | (_ | _ | _) <;> simp [allows, following]
    · simp

/-! ## Faults -/

def pendingAfter (before : List String) : Option JoinWord := before.getLast?.bind joinOf?

def seenIn (before : List String) : Bool := before.any fun item => (joinOf? item).isNone

@[simp] theorem pendingAfter_append (before : List String) (item : String) :
    pendingAfter (before ++ [item]) = joinOf? item := by
  simp [pendingAfter]

@[simp] theorem seenIn_append (before : List String) (item : String) :
    seenIn (before ++ [item]) = (seenIn before || (joinOf? item).isNone) := by
  simp [seenIn]

/-- What is wrong with an item that comes after others. -/
inductive Fault (s : Schema) (before : List String) (item : String) : ConditionError → Prop where
  /-- There is no condition to join, and the item does not come after a join word either. -/
  | dangling {j : JoinWord} (word : joinOf? item = some j) (binary : j ≠ .not)
    (unseen : ∀ earlier ∈ before, joinOf? earlier ≠ none) (free : pendingAfter before = none) :
    Fault s before item (.danglingOperator j.word)
  /-- Two join words meet that are not `AND` and `NOT`. -/
  | malformed {i j : JoinWord} (word : joinOf? item = some j) (waiting : pendingAfter before = some i)
    (other : ¬(i = .and ∧ j = .not)) : Fault s before item (.malformed (trimmed item.toList))
  | unread {e : ConditionError} (condition : joinOf? item = none)
    (refused : Condition.read s (trimmed item.toList) = .error e) : Fault s before item e

variable {s : Schema} {before items : List String} {item : String} {e : ConditionError}

theorem seenIn_eq_false : seenIn before = false ↔ ∀ earlier ∈ before, joinOf? earlier ≠ none := by
  simp [seenIn, Option.isNone_iff_eq_none]

theorem exists_fault_of_join {j : JoinWord} (hj : joinOf? item = some j)
    (h : allows (seenIn before) (pendingAfter before) (some j) = false) :
    ∃ e, Fault s before item e := by
  cases hpending : pendingAfter before with
  | none =>
    rw [hpending] at h
    have hnot : j ≠ .not := by
      rintro rfl
      cases h
    have hseen : seenIn before = false := by
      cases j <;> first | exact h | exact absurd rfl hnot
    exact ⟨_, .dangling hj hnot (seenIn_eq_false.mp hseen) hpending⟩
  | some i =>
    refine ⟨_, .malformed hj hpending ?_⟩
    rintro ⟨rfl, rfl⟩
    rw [hpending] at h
    cases h

theorem forall_not_fault_iff : (∀ e, ¬Fault s before item e) ↔
    allows (seenIn before) (pendingAfter before) (joinOf? item) = true ∧
      (joinOf? item = none → ∃ c, Condition.read s (trimmed item.toList) = .ok c) := by
  constructor
  · intro h
    cases hj : joinOf? item with
    | none =>
      refine ⟨by cases pendingAfter before <;> rfl, fun _ => ?_⟩
      cases hread : Condition.read s (trimmed item.toList) with
      | ok c => exact ⟨c, rfl⟩
      | error e => exact absurd (.unread hj hread) (h e)
    | some j =>
      refine ⟨?_, by simp⟩
      by_contra hallows
      obtain ⟨e, he⟩ := exists_fault_of_join (s := s) hj (by simpa using hallows)
      exact h e he
  · rintro ⟨hallows, hread⟩ e he
    cases he with
    | @dangling j hj hnot hunseen hfree =>
      rw [hj, hfree, seenIn_eq_false.mpr hunseen] at hallows
      cases j <;> first | cases hallows; done | exact hnot rfl
    | @malformed i j hj hwaiting hother =>
      rw [hj, hwaiting] at hallows
      cases i <;> cases j <;> first | cases hallows; done | exact hother ⟨rfl, rfl⟩
    | unread hnone hrefused =>
      obtain ⟨c, hc⟩ := hread hnone
      rw [hc] at hrefused
      cases hrefused

/-- No item is at fault where it stands. -/
def Faultless (s : Schema) (items : List String) : Prop :=
  ∀ before item after, items = before ++ item :: after → ∀ e, ¬Fault s before item e

theorem faultless_iff : Faultless s items ↔
    (∀ before item after, items = before ++ item :: after →
      allows (seenIn before) (pendingAfter before) (joinOf? item) = true) ∧
    ∀ item ∈ items, joinOf? item = none →
      ∃ c, Condition.read s (trimmed item.toList) = .ok c := by
  unfold Faultless
  simp only [forall_not_fault_iff]
  refine ⟨fun h => ⟨fun before x after hx => (h before x after hx).1, fun x hmem => ?_⟩,
    fun h before x after hx => ⟨h.1 before x after hx, h.2 x (by simp [hx])⟩⟩
  obtain ⟨before, after, hx⟩ := List.append_of_mem hmem
  exact (h before x after hx).2

/-- What is wrong with items: the fault of the first that has one or, if none has, the join word at
the end. -/
inductive Refused (s : Schema) (items : List String) : ConditionError → Prop where
  | item {before after : List String} {item : String} {e : ConditionError}
    (place : items = before ++ item :: after) (first : Faultless s before)
    (fault : Fault s before item e) : Refused s items e
  | finish {j : JoinWord} (faultless : Faultless s items) (waiting : pendingAfter items = some j) :
    Refused s items (.danglingOperator j.word)

theorem faultless_append :
    Faultless s (items ++ [item]) ↔ Faultless s items ∧ ∀ e, ¬Fault s items item e := by
  constructor
  · intro h
    refine ⟨fun before x after hx => ?_, h items item [] rfl⟩
    exact h before x (after ++ [item]) (by simp [hx])
  · rintro ⟨h, hlast⟩ before x after hx
    rcases List.eq_nil_or_concat after with rfl | ⟨after, y, rfl⟩
    · obtain ⟨rfl, h⟩ := List.append_inj' hx rfl
      cases h
      exact hlast
    · refine h before x after ?_
      have : items ++ [item] = (before ++ x :: after) ++ [y] := by simpa using hx
      exact (List.append_inj' this rfl).1

theorem exists_first_fault (h : ¬Faultless s items) :
    ∃ before item after e, items = before ++ item :: after ∧ Faultless s before ∧
      Fault s before item e := by
  induction items using List.reverseRecOn with
  | nil => exact absurd (fun _ _ _ h => by simp at h) h
  | append_singleton items x ih =>
    by_cases hitems : Faultless s items
    · have hx : ¬∀ e, ¬Fault s items x e := fun hx => h (faultless_append.mpr ⟨hitems, hx⟩)
      obtain ⟨e, he⟩ := not_forall_not.mp hx
      exact ⟨items, x, [], e, rfl, hitems, he⟩
    · obtain ⟨before, y, after, e, rfl, hfirst, hfault⟩ := ih hitems
      exact ⟨before, y, after ++ [x], e, by simp, hfirst, hfault⟩

/-! ## The reader -/

namespace PartialClause

/-- What the reader holds after items without fault. -/
structure Follows (before : List String) (p : PartialClause) : Prop where
  seen : p.last.isSome = seenIn before
  pending : p.pending = pendingAfter before
  /-- `OR` waits only after a condition, which is where the reader looks for it. -/
  joined : p.pending = some .or → p.last.isSome = true
  reads : ∃ cs, Reads p.clause p.last cs

variable {p : PartialClause}

theorem item_of_join {j : JoinWord} (hj : joinOf? item = some j) :
    p.item s item = p.join (trimmed item.toList) j := by
  simp only [PartialClause.item, ofWord?_eq_joinOf?, hj]

theorem item_of_condition (hnone : joinOf? item = none) :
    p.item s item = (Condition.read s (trimmed item.toList) >>= p.condition) := by
  simp only [PartialClause.item, ofWord?_eq_joinOf?, hnone]

theorem follows_start : start.Follows [] := ⟨rfl, rfl, by simp [start], [], Reads.start⟩

theorem Follows.join (h : p.Follows before) {j : JoinWord} (hj : joinOf? item = some j)
    (hallows : allows (seenIn before) (pendingAfter before) (some j) = true) (text : String) :
    p.join text j = .ok { p with pending := some j } ∧
      ({ p with pending := some j } : PartialClause).Follows (before ++ [item]) := by
  rw [← h.seen, ← h.pending] at hallows
  have hor : j = .or → p.last.isSome = true := by
    rintro rfl
    cases hpending : p.pending <;> simp_all [allows]
  refine ⟨?_, by simp [h.seen, hj], by simp [hj], by simpa using hor, h.reads⟩
  unfold PartialClause.join
  rcases hpending : p.pending with _ | (_ | _ | _) <;> cases j <;> simp_all [allows]

theorem Follows.condition (h : p.Follows before) (hnone : joinOf? item = none) (c : Condition) :
    ∃ p', p.condition c = .ok p' ∧ p'.Follows (before ++ [item]) := by
  obtain ⟨cs, hreads⟩ := h.reads
  obtain ⟨⟨t, slot⟩, hplace⟩ :
      ∃ placed, p.clause.place p.last c (p.pending.getD .and) = .ok placed := by
    cases hpending : p.pending with
    | none => exact ⟨_, rfl⟩
    | some j =>
      cases j with
      | and | not => exact ⟨_, rfl⟩
      | or =>
        obtain ⟨slot, hslot⟩ := Option.isSome_iff_exists.mp (h.joined hpending)
        rw [hslot] at hreads ⊢
        obtain ⟨t, slot', hextend, -⟩ := hreads.join (c := ⟨.or, c⟩) rfl
        exact ⟨_, hextend⟩
  refine ⟨⟨t, some slot, none⟩, ?_, by simp [hnone], by simp [hnone], by simp, _,
    hreads.place (c := ⟨p.pending.getD .and, c⟩) hplace⟩
  rw [PartialClause.condition, hplace]
  rfl

theorem Follows.item_ok (h : p.Follows before) (hfault : ∀ e, ¬Fault s before item e) :
    ∃ p', p.item s item = .ok p' ∧ p'.Follows (before ++ [item]) := by
  obtain ⟨hallows, hread⟩ := forall_not_fault_iff.mp hfault
  cases hj : joinOf? item with
  | some j =>
    rw [item_of_join hj]
    exact ⟨_, h.join hj (hj ▸ hallows) _⟩
  | none =>
    obtain ⟨c, hc⟩ := hread hj
    rw [item_of_condition hj, hc, Outcome.ok_bind]
    exact h.condition hj c

theorem Follows.item_error (h : p.Follows before) (hfault : Fault s before item e) :
    p.item s item = .error e := by
  cases hfault with
  | @dangling j hj hnot hunseen hfree =>
    have hlast : p.last.isSome = false := h.seen.trans (seenIn_eq_false.mpr hunseen)
    have hpending : p.pending = none := h.pending.trans hfree
    rw [item_of_join hj]
    unfold PartialClause.join
    rw [hpending, hlast]
    cases j <;> first | rfl | exact absurd rfl hnot
  | @malformed i j hj hwaiting hother =>
    have hpending : p.pending = some i := h.pending.trans hwaiting
    rw [item_of_join hj]
    unfold PartialClause.join
    rw [hpending]
    cases i <;> cases j <;> first | rfl | exact absurd ⟨rfl, rfl⟩ hother
  | unread hnone hrefused => rw [item_of_condition hnone, hrefused, Outcome.error_bind]

theorem exists_follows (h : Faultless s items) :
    ∃ p, items.foldlM (PartialClause.item s) .start = .ok p ∧ p.Follows items := by
  induction items using List.reverseRecOn with
  | nil => exact ⟨_, rfl, follows_start⟩
  | append_singleton items item ih =>
    obtain ⟨hitems, hitem⟩ := faultless_append.mp h
    obtain ⟨p, hp, hfollows⟩ := ih hitems
    obtain ⟨p', hp', hfollows'⟩ := hfollows.item_ok hitem
    refine ⟨p', ?_, hfollows'⟩
    rw [List.foldlM_append, hp, Outcome.ok_bind, List.foldlM_cons, hp']
    rfl

end PartialClause

/-! ## What is read -/

/-- Items without fault, the last of which is no join word, are read. -/
theorem read_ok_of_faultless (h : Faultless s items) (hend : pendingAfter items = none) :
    ∃ t, WhereClause.read s items = .ok t := by
  obtain ⟨p, hp, hfollows⟩ := PartialClause.exists_follows h
  refine ⟨p.clause, ?_⟩
  rw [WhereClause.read, hp, Outcome.ok_bind, PartialClause.finish, hfollows.pending, hend]

theorem read_error_of_refused (h : Refused s items e) : WhereClause.read s items = .error e := by
  cases h with
  | item place first fault =>
    obtain ⟨p, hp, hfollows⟩ := PartialClause.exists_follows first
    rw [WhereClause.read, place, List.foldlM_append, hp, Outcome.ok_bind, List.foldlM_cons,
      hfollows.item_error fault, Outcome.error_bind, Outcome.error_bind]
  | finish faultless waiting =>
    obtain ⟨p, hp, hfollows⟩ := PartialClause.exists_follows faultless
    rw [WhereClause.read, hp, Outcome.ok_bind, PartialClause.finish, hfollows.pending, waiting]

/-- There is nothing wrong with items, or else something definite. -/
theorem faultless_or_refused (s : Schema) (items : List String) :
    Faultless s items ∧ pendingAfter items = none ∨ ∃ e, Refused s items e := by
  by_cases h : Faultless s items
  · cases hend : pendingAfter items with
    | none => exact .inl ⟨h, rfl⟩
    | some j => exact .inr ⟨_, .finish h hend⟩
  · obtain ⟨before, item, after, e, hplace, hfirst, hfault⟩ := exists_first_fault h
    exact .inr ⟨e, .item hplace hfirst hfault⟩

/-- The kinds of items are a word of the language if every item is allowed where it stands and the
last is no join word. -/
theorem kinds_mem_following : items.map joinOf? ∈ following (seenIn before) (pendingAfter before) ↔
    (∀ mid item after, items = mid ++ item :: after →
      allows (seenIn (before ++ mid)) (pendingAfter (before ++ mid)) (joinOf? item) = true) ∧
    pendingAfter (before ++ items) = none := by
  induction items generalizing before with
  | nil => simp [nil_mem_following]
  | cons x items ih =>
    have hnext : following (seenIn before || (joinOf? x).isNone) (joinOf? x) =
        following (seenIn (before ++ [x])) (pendingAfter (before ++ [x])) := by simp
    rw [List.map_cons, cons_mem_following, hnext, ih, ← and_assoc]
    refine and_congr ⟨?_, fun h => ⟨?_, fun mid item after hmid => ?_⟩⟩ (by simp)
    · rintro ⟨hx, h⟩ mid item after hmid
      cases mid with
      | nil =>
        cases hmid
        simpa using hx
      | cons y mid =>
        cases hmid
        simpa using h mid item after rfl
    · simpa using h [] x items rfl
    · simpa using h (x :: mid) item after (by rw [hmid]; rfl)

/-- A list of items is read as a where clause just if it is one of the language and each of its
conditions can be read. One that is not read is refused for the first fault, and for a join word at
the end only if nothing else is wrong. -/
theorem WhereClause.read_iff_clauses (s : Schema) (items : List String) :
    ((∃ t, WhereClause.read s items = .ok t) ↔
      items.map joinOf? ∈ clauses ∧ ∀ item ∈ items, joinOf? item = none →
        ∃ c, Condition.read s (trimmed item.toList) = .ok c) ∧
    ∀ e, WhereClause.read s items = .error e ↔ Refused s items e := by
  have hread : (∃ t, WhereClause.read s items = .ok t) ↔
      Faultless s items ∧ pendingAfter items = none := by
    refine ⟨fun ⟨t, ht⟩ => ?_, fun h => read_ok_of_faultless h.1 h.2⟩
    refine (faultless_or_refused s items).resolve_right fun ⟨e, he⟩ => ?_
    rw [read_error_of_refused he] at ht
    cases ht
  constructor
  · have hkinds : items.map joinOf? ∈ clauses ↔ _ := @kinds_mem_following [] items
    rw [hread, hkinds, faultless_iff]
    simp only [List.nil_append, and_right_comm]
  · refine fun e => ⟨fun he => ?_, read_error_of_refused⟩
    rcases faultless_or_refused s items with h | ⟨e', he'⟩
    · obtain ⟨t, ht⟩ := hread.mpr h
      rw [he] at ht
      cases ht
    · rw [read_error_of_refused he'] at he
      cases he
      exact he'

end TypedTables
