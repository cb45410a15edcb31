import Mathlib.Data.List.SplitBy
import Mathlib.Data.List.Perm.Basic
import TypedTables.Condition.WhereClause
import TypedTables.Proofs.Outcome

/-!
# Segments of where clauses

What a where clause says, without the order in which it is read. Every condition has the join word
right before it as its label, `AND` if there is none. The list of conditions is cut before each one
that is not labelled `OR`. A segment of one condition stands by itself, as its label says; a segment
of more is a group, whatever the label of its first condition.

The reader moves conditions about while it reads (`PartialClause`). `Reads p segs` says that what it
holds is what the segments say: it is true at the start, each item keeps it, and so it is true of
the clause that comes out (`reads_foldlM`).
-/

namespace TypedTables

open Text

/-- A condition and the join word before it. -/
structure Labelled where
  label : JoinWord
  condition : Condition
  deriving DecidableEq

/-- The items that are no join words, each with the join word before it. -/
def labelItems : JoinWord → List String → List (JoinWord × String)
  | _, [] => []
  | label, item :: items =>
    match JoinWord.ofWord? (trimmed item.toList) with
    | some j => labelItems j items
    | none => (label, trimmed item.toList) :: labelItems .and items

def readLabelled (s : Schema) (texts : List (JoinWord × String)) :
    Except ConditionError (List Labelled) :=
  texts.mapM fun (label, text) => (Condition.read s text).map (⟨label, ·⟩)

def labelledConditions (s : Schema) (items : List String) :
    Except ConditionError (List Labelled) :=
  readLabelled s (labelItems .and items)

/-- The list, cut before each condition that is not labelled `OR`. -/
def segments (cs : List Labelled) : List (List Labelled) := cs.splitBy fun _ c => c.label == .or

def alone? (label : JoinWord) : List Labelled → Option Condition
  | [c] => if c.label = label then some c.condition else none
  | _ => none

def isGroup (seg : List Labelled) : Bool := decide (2 ≤ seg.length)

namespace WhereClause

def ofSegments (segs : List (List Labelled)) : WhereClause where
  allOf := segs.filterMap (alone? .and)
  anyOf := (segs.filter isGroup).map (·.map Labelled.condition)
  noneOf := segs.filterMap (alone? .not)

end WhereClause

/-! ## Cutting -/

theorem segments_append_of_ne_or (cs : List Labelled) {c : Labelled} (h : c.label ≠ .or) :
    segments (cs ++ [c]) = segments cs ++ [[c]] := by
  unfold segments
  rw [List.splitBy_append_cons]
  · rfl
  · intro d _
    simpa using h

theorem segments_append_or {cs : List Labelled} {segs : List (List Labelled)} {seg : List Labelled}
    (hs : segments cs = segs ++ [seg]) {c : Labelled} (h : c.label = .or) :
    segments (cs ++ [c]) = segs ++ [seg ++ [c]] := by
  unfold segments at hs ⊢
  rw [List.splitBy_eq_iff] at hs ⊢
  obtain ⟨hflat, hnil, hchain, hcut⟩ := hs
  have hseg : seg ≠ [] := fun e => hnil (by simp [e])
  refine ⟨by simp [hflat], ?_, ?_, ?_⟩
  · simp only [List.mem_append, List.mem_singleton, not_or] at hnil ⊢
    exact ⟨hnil.1, by simp⟩
  · intro m hm
    rcases List.mem_append.mp hm with hm | hm
    · exact hchain m (List.mem_append_left _ hm)
    · rw [List.mem_singleton] at hm
      subst hm
      rw [List.isChain_append]
      exact ⟨hchain seg (by simp), by simp, by simp [h]⟩
  · rw [List.isChain_append] at hcut ⊢
    refine ⟨hcut.1, by simp, fun x hx y hy => ?_⟩
    obtain ⟨hx', _, hlabel⟩ := hcut.2.2 x hx seg (by simp)
    obtain rfl : seg ++ [c] = y := by simpa using hy
    refine ⟨hx', by simp, ?_⟩
    rw [List.head_append_of_ne_nil hseg]
    exact hlabel

/-! ## Segments and clauses -/

namespace WhereClause

theorem ofSegments_append (segs : List (List Labelled)) (seg : List Labelled) :
    ofSegments (segs ++ [seg]) =
      ⟨(ofSegments segs).allOf ++ (alone? .and seg).toList,
        (ofSegments segs).anyOf ++ if isGroup seg then [seg.map Labelled.condition] else [],
        (ofSegments segs).noneOf ++ (alone? .not seg).toList⟩ := by
  simp only [ofSegments, List.filterMap_append, List.filter_append, List.map_append, mk.injEq]
  refine ⟨?_, ?_, ?_⟩
  · cases h : alone? .and seg <;> simp [h]
  · cases h : isGroup seg <;> simp [h]
  · cases h : alone? .not seg <;> simp [h]

end WhereClause

/-- Where the last condition of segments has been put. -/
inductive LastIn : List (List Labelled) → Option Slot → Prop where
  | nothing : LastIn [] none
  | and (segs : List (List Labelled)) {c : Labelled} :
    c.label = .and → LastIn (segs ++ [[c]]) (some .allOf)
  | not (segs : List (List Labelled)) {c : Labelled} :
    c.label = .not → LastIn (segs ++ [[c]]) (some .noneOf)
  | group (segs : List (List Labelled)) {seg : List Labelled} :
    isGroup seg = true →
    LastIn (segs ++ [seg]) (some (.anyOf (WhereClause.ofSegments segs).anyOf.length))

namespace WhereClause

theorem pop?_and (segs : List (List Labelled)) {c : Labelled} (h : c.label = .and) :
    (ofSegments (segs ++ [[c]])).pop? .allOf = some (c.condition, ofSegments segs) := by
  rw [ofSegments_append]
  simp [pop?, alone?, isGroup, h]

theorem pop?_not (segs : List (List Labelled)) {c : Labelled} (h : c.label = .not) :
    (ofSegments (segs ++ [[c]])).pop? .noneOf = some (c.condition, ofSegments segs) := by
  rw [ofSegments_append]
  simp [pop?, alone?, isGroup, h]

theorem alone?_of_isGroup {seg : List Labelled} (h : isGroup seg = true) (label : JoinWord) :
    alone? label seg = none := by
  unfold alone?
  split
  · simp [isGroup] at h
  · rfl

theorem ofSegments_append_group (segs : List (List Labelled)) {seg : List Labelled}
    (h : isGroup seg = true) :
    ofSegments (segs ++ [seg]) = { ofSegments segs with
      anyOf := (ofSegments segs).anyOf ++ [seg.map Labelled.condition] } := by
  rw [ofSegments_append]
  simp [alone?_of_isGroup h, h]

theorem isGroup_append {seg : List Labelled} (h : seg ≠ []) (c : Labelled) :
    isGroup (seg ++ [c]) = true := by
  have := List.length_pos_iff.mpr h
  simp [isGroup]
  omega

theorem extend_of_lastIn {segs : List (List Labelled)} {seg : List Labelled} {slot : Slot}
    (h : LastIn (segs ++ [seg]) (some slot)) (c : Condition) :
    (ofSegments (segs ++ [seg])).extend c (some slot) =
      .ok (ofSegments (segs ++ [seg ++ [⟨.or, c⟩]]), .anyOf (ofSegments segs).anyOf.length) := by
  generalize hs : segs ++ [seg] = all at h
  generalize hl : some slot = last at h
  cases h with
  | nothing => cases hl
  | and segs' hand =>
    obtain ⟨rfl, rfl⟩ := List.append_singleton_inj.mp hs
    cases hl
    simp only [extend, pop?_and _ hand]
    rw [ofSegments_append_group _ (isGroup_append (by simp) _)]
    rfl
  | not segs' hnot =>
    obtain ⟨rfl, rfl⟩ := List.append_singleton_inj.mp hs
    cases hl
    simp only [extend, pop?_not _ hnot]
    rw [ofSegments_append_group _ (isGroup_append (by simp) _)]
    rfl
  | group segs' hgroup =>
    obtain ⟨rfl, rfl⟩ := List.append_singleton_inj.mp hs
    cases hl
    have hne : seg ≠ [] := fun e => by simp [e, isGroup] at hgroup
    rw [extend, ofSegments_append_group _ hgroup, ofSegments_append_group _ (isGroup_append hne _)]
    rw [List.modify_eq_take_cons_drop (by simp)]
    simp

end WhereClause

/-! ## What the reader holds -/

/-- A clause, and where its last condition is, after these conditions. -/
structure Reads (t : WhereClause) (last : Option Slot) (cs : List Labelled) : Prop where
  clause : t = .ofSegments (segments cs)
  last : LastIn (segments cs) last
  kinds : ∀ seg ∈ segments cs, isGroup seg = true ∨ ∃ c : Labelled, seg = [c] ∧ c.label ≠ .or

theorem Reads.start : Reads .empty none [] :=
  ⟨rfl, .nothing, by simp [segments]⟩

/-- A condition after `AND` or `NOT` is a segment of its own. -/
theorem Reads.cut {t : WhereClause} {last : Option Slot} {cs : List Labelled} {c : Labelled}
    {slot : Slot} (h : Reads t last cs) (hne : c.label ≠ .or)
    (hslot : LastIn (segments cs ++ [[c]]) (some slot)) :
    Reads (.ofSegments (segments cs ++ [[c]])) (some slot) (cs ++ [c]) := by
  have hseg := segments_append_of_ne_or cs hne
  refine ⟨by rw [hseg], by rwa [hseg], fun seg hmem => ?_⟩
  rw [hseg] at hmem
  rcases List.mem_append.mp hmem with hmem | hmem
  · exact h.kinds seg hmem
  · exact .inr ⟨c, List.mem_singleton.mp hmem, hne⟩

/-- A condition after `OR` goes to the segment before. -/
theorem Reads.join {t : WhereClause} {slot : Slot} {cs : List Labelled} {c : Labelled}
    (h : Reads t (some slot) cs) (hor : c.label = .or) :
    ∃ t' slot', t.extend c.condition (some slot) = .ok (t', slot') ∧
      Reads t' (some slot') (cs ++ [c]) := by
  obtain ⟨segs, seg, hs⟩ : ∃ segs seg, segments cs = segs ++ [seg] := by
    have hlast := h.last
    generalize segments cs = all at hlast
    cases hlast with
    | and segs _ => exact ⟨segs, _, rfl⟩
    | not segs _ => exact ⟨segs, _, rfl⟩
    | group segs _ => exact ⟨segs, _, rfl⟩
  have hseg := segments_append_or hs hor
  have hne : seg ≠ [] := List.ne_nil_of_mem_splitBy (l := cs) (by
    change seg ∈ segments cs
    simp [hs])
  have hgroup := WhereClause.isGroup_append hne c
  obtain ⟨_, condition⟩ := c
  cases hor
  refine ⟨_, _, ?_, by rw [hseg], by rw [hseg]; exact .group segs hgroup, fun s hmem => ?_⟩
  · rw [h.clause, hs]
    exact WhereClause.extend_of_lastIn (hs ▸ h.last) condition
  · rw [hseg] at hmem
    rcases List.mem_append.mp hmem with hmem | hmem
    · exact h.kinds s (by rw [hs]; exact List.mem_append_left _ hmem)
    · exact .inl (by rw [List.mem_singleton.mp hmem]; exact hgroup)

theorem Reads.place {t t' : WhereClause} {last : Option Slot} {slot : Slot} {cs : List Labelled}
    {c : Labelled} (h : Reads t last cs) (hp : t.place last c.condition c.label = .ok (t', slot)) :
    Reads t' (some slot) (cs ++ [c]) := by
  obtain ⟨label, condition⟩ := c
  cases label with
  | and =>
    cases hp
    have := h.cut (c := ⟨.and, condition⟩) (by simp) (.and _ rfl)
    rw [WhereClause.ofSegments_append, ← h.clause] at this
    simpa [alone?, isGroup] using this
  | not =>
    cases hp
    have := h.cut (c := ⟨.not, condition⟩) (by simp) (.not _ rfl)
    rw [WhereClause.ofSegments_append, ← h.clause] at this
    simpa [alone?, isGroup] using this
  | or =>
    cases last with
    | none => cases hp
    | some before =>
      obtain ⟨t1, slot1, he, hr⟩ := h.join (c := ⟨.or, condition⟩) rfl
      change t.extend condition (some before) = _ at hp
      rw [he] at hp
      cases hp
      exact hr

theorem Reads.pop?_isSome {t : WhereClause} {slot : Slot} {cs : List Labelled}
    (h : Reads t (some slot) cs) (hslot : ∀ group, slot ≠ .anyOf group) :
    (t.pop? slot).isSome = true := by
  rw [h.clause]
  have hlast := h.last
  generalize hl : some slot = last at hlast
  generalize segments cs = segs at hlast
  cases hlast with
  | nothing => cases hl
  | and segs hand => cases hl; simp [WhereClause.pop?_and segs hand]
  | not segs hnot => cases hl; simp [WhereClause.pop?_not segs hnot]
  | group segs _ => cases hl; exact absurd rfl (hslot _)

theorem Reads.group_lt {t : WhereClause} {group : Nat} {cs : List Labelled}
    (h : Reads t (some (.anyOf group)) cs) : group < t.anyOf.length := by
  rw [h.clause]
  have hlast := h.last
  generalize hl : some (Slot.anyOf group) = last at hlast
  generalize segments cs = segs at hlast
  cases hlast with
  | nothing => cases hl
  | and _ _ => cases hl
  | not _ _ => cases hl
  | group segs hgroup =>
    cases hl
    rw [WhereClause.ofSegments_append_group _ hgroup]
    simp

/-! ## Items -/

namespace PartialClause

theorem join_eq {p p' : PartialClause} {text : String} {j : JoinWord}
    (h : p.join text j = .ok p') : p' = { p with pending := some j } := by
  unfold join at h
  split at h
  · cases h; rfl
  · cases h; rfl
  · split at h
    · cases h; rfl
    · cases h
  · cases h

theorem reads_condition {p p' : PartialClause} {c : Condition} {cs : List Labelled}
    (hp : Reads p.clause p.last cs) (h : p.condition c = .ok p') :
    p'.pending = none ∧ Reads p'.clause p'.last (cs ++ [⟨p.pending.getD .and, c⟩]) := by
  unfold condition at h
  obtain ⟨⟨t, slot⟩, hplace, h⟩ := Outcome.bind_eq_ok.mp h
  cases h
  exact ⟨rfl, hp.place (c := ⟨p.pending.getD .and, c⟩) hplace⟩

/-- Items add the conditions that they write, labelled, to those before. -/
theorem reads_foldlM {s : Schema} {items : List String} :
    ∀ {p p' : PartialClause} {cs : List Labelled}, Reads p.clause p.last cs →
      items.foldlM (item s) p = .ok p' →
      ∃ more, readLabelled s (labelItems (p.pending.getD .and) items) = .ok more ∧
        Reads p'.clause p'.last (cs ++ more) := by
  induction items with
  | nil =>
    intro p p' cs hp h
    cases h
    exact ⟨[], rfl, by simpa using hp⟩
  | cons text items ih =>
    intro p p' cs hp h
    rw [List.foldlM_cons] at h
    obtain ⟨q, hq, h⟩ := Outcome.bind_eq_ok.mp h
    unfold item at hq
    rw [labelItems]
    cases hj : JoinWord.ofWord? (trimmed text.toList) with
    | some j =>
      simp only [hj] at hq ⊢
      obtain rfl := join_eq hq
      exact ih (p := { p with pending := some j }) hp h
    | none =>
      simp only [hj] at hq ⊢
      obtain ⟨c, hc, hq⟩ := Outcome.bind_eq_ok.mp hq
      obtain ⟨hnone, hreads⟩ := reads_condition hp hq
      obtain ⟨more, hmore, hfinal⟩ := ih hreads h
      rw [hnone] at hmore
      refine ⟨⟨p.pending.getD .and, c⟩ :: more, ?_, by simpa using hfinal⟩
      unfold readLabelled at hmore ⊢
      rw [Outcome.mapM_eq_ok] at hmore ⊢
      exact .cons (Outcome.map_eq_ok.mpr ⟨c, hc, rfl⟩) hmore

end PartialClause

/-! ## What a clause says -/

namespace WhereClause

theorem ofSegments_perm {segs : List (List Labelled)}
    (h : ∀ seg ∈ segs, isGroup seg = true ∨ ∃ c : Labelled, seg = [c] ∧ c.label ≠ .or) :
    ((ofSegments segs).allOf ++ ((ofSegments segs).noneOf ++ (ofSegments segs).anyOf.flatten)).Perm
      (segs.flatten.map Labelled.condition) := by
  induction segs with
  | nil => exact .refl _
  | cons seg segs ih =>
    have ih := ih fun seg' hmem => h seg' (List.mem_cons_of_mem _ hmem)
    simp only [ofSegments] at ih ⊢
    rcases h seg (List.mem_cons_self ..) with hgroup | ⟨⟨label, c⟩, rfl, hne⟩
    · simp only [List.filterMap_cons, alone?_of_isGroup hgroup, List.filter_cons, hgroup,
        ↓reduceIte, List.map_cons, List.flatten_cons, List.map_append]
      exact ((List.perm_append_comm_assoc ..).append_left _).trans
        ((List.perm_append_comm_assoc ..).trans (ih.append_left _))
    · cases label with
      | and => simpa [alone?, isGroup] using ih
      | not =>
        simp only [List.filterMap_cons, alone?, List.filter_cons, isGroup, List.flatten_cons,
          List.map_append, List.map_cons, List.map_nil, List.length_singleton]
        exact List.perm_middle.trans (ih.cons c)
      | or => exact absurd rfl hne

theorem holds_ofSegments (segs : List (List Labelled)) (row : Row) :
    (ofSegments segs).holds row = true ↔
      (∀ c, [⟨.and, c⟩] ∈ segs → c.holds row = true) ∧
      (∀ c, [⟨.not, c⟩] ∈ segs → c.holds row = false) ∧
      ∀ seg ∈ segs, 2 ≤ seg.length → ∃ c ∈ seg, c.condition.holds row = true := by
  have halone : ∀ label c, c ∈ segs.filterMap (alone? label) ↔ [⟨label, c⟩] ∈ segs := by
    intro label c
    rw [List.mem_filterMap]
    constructor
    · rintro ⟨seg, hmem, hseg⟩
      unfold alone? at hseg
      split at hseg
      · next d =>
        obtain ⟨rfl, rfl⟩ : d.label = label ∧ d.condition = c := by simpa using hseg
        exact hmem
      · cases hseg
    · exact fun hmem => ⟨_, hmem, by simp [alone?]⟩
  simp only [holds, ofSegments, Bool.and_eq_true, List.all_eq_true, Bool.not_eq_true',
    List.any_eq_false, List.any_eq_true, halone, List.mem_map, List.mem_filter, isGroup,
    decide_eq_true_eq, Bool.not_eq_true, and_assoc]
  refine and_congr_right fun _ => and_congr_right fun _ => ?_
  constructor
  · intro h seg hmem hlen
    obtain ⟨_, hmap, hholds⟩ := h _ ⟨seg, hmem, hlen, rfl⟩
    obtain ⟨c, hc, rfl⟩ := List.mem_map.mp hmap
    exact ⟨c, hc, hholds⟩
  · rintro h _ ⟨seg, hmem, hlen, rfl⟩
    obtain ⟨c, hc, hholds⟩ := h seg hmem hlen
    exact ⟨_, List.mem_map_of_mem hc, hholds⟩

/-- The clause says what the segments of labelled conditions say. -/
structure Says (t : WhereClause) (cs : List Labelled) : Prop where
  allOf : t.allOf = (segments cs).filterMap (alone? .and)
  noneOf : t.noneOf = (segments cs).filterMap (alone? .not)
  anyOf : t.anyOf = ((segments cs).filter isGroup).map (·.map Labelled.condition)
  /-- Every condition is in the clause once. -/
  perm : (t.allOf ++ (t.noneOf ++ t.anyOf.flatten)).Perm (cs.map Labelled.condition)
  holds : ∀ row, t.holds row = true ↔
    (∀ c, [⟨.and, c⟩] ∈ segments cs → c.holds row = true) ∧
    (∀ c, [⟨.not, c⟩] ∈ segments cs → c.holds row = false) ∧
    ∀ seg ∈ segments cs, 2 ≤ seg.length → ∃ c ∈ seg, c.condition.holds row = true

end WhereClause

theorem Reads.says {t : WhereClause} {last : Option Slot} {cs : List Labelled}
    (h : Reads t last cs) : t.Says cs := by
  rw [h.clause]
  have hperm := WhereClause.ofSegments_perm h.kinds
  rw [segments, List.flatten_splitBy] at hperm
  exact ⟨rfl, rfl, rfl, hperm, WhereClause.holds_ofSegments _⟩

/-- A clause that is read says what its segments say, and no list of items makes the reader look for
a condition, or for a group, where there is none. -/
theorem WhereClause.says_of_read {s : Schema} {items : List String} {t : WhereClause}
    (h : WhereClause.read s items = .ok t) :
    (∃ cs, labelledConditions s items = .ok cs ∧ t.Says cs) ∧
      ∀ (before : List String) (p : PartialClause) (slot : Slot),
        before.foldlM (PartialClause.item s) .start = .ok p → p.last = some slot →
        ((∀ group, slot ≠ .anyOf group) → (p.clause.pop? slot).isSome = true) ∧
          ∀ group, slot = .anyOf group → group < p.clause.anyOf.length := by
  constructor
  · obtain ⟨p, hp, h⟩ := Outcome.bind_eq_ok.mp h
    obtain ⟨cs, hcs, hreads⟩ := PartialClause.reads_foldlM Reads.start hp
    refine ⟨cs, hcs, ?_⟩
    unfold PartialClause.finish at h
    split at h
    · cases h
    · cases h
      exact hreads.says
  · intro before p slot hp hlast
    obtain ⟨cs, -, hreads⟩ := PartialClause.reads_foldlM Reads.start hp
    rw [hlast] at hreads
    exact ⟨hreads.pop?_isSome, fun group e => Reads.group_lt (e ▸ hreads)⟩

/-- `NOT` before a group is lost, and a condition without a join word begins a new segment. -/
theorem WhereClause.says_of_read_group :
    let s : Schema := ⟨[{ name := "a", type := .text, size := 1 },
      { name := "b", type := .text, size := 1 }]⟩
    let items := ["NOT", "a=='1'", "OR", "b=='2'", "a!='3'", "and", "not", "b>'4'"]
    let t : WhereClause := ⟨[⟨"a", 0, .notEqual, .text "3"⟩],
      [[⟨"a", 0, .equal, .text "1"⟩, ⟨"b", 1, .equal, .text "2"⟩]],
      [⟨"b", 1, .greater, .text "4"⟩]⟩
    WhereClause.read s items = .ok t ∧ ∃ cs, labelledConditions s items = .ok cs ∧ t.Says cs := by
  intro s items t
  have h : WhereClause.read s items = .ok t := by decide +kernel
  exact ⟨h, (WhereClause.says_of_read h).1⟩

end TypedTables
