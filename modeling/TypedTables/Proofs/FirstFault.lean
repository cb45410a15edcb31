import TypedTables.Proofs.Outcome

/-!
# First faults

Which of several faults is reported: that of the first entry that is at fault, where an entry can be at
fault because of those before it (`FirstFault`). Steps that can fail, one after the other, end with the
first fault.
-/

namespace TypedTables

variable {α β ε : Type}

/-- The complaint is one about an entry, and there is none about an entry before it. -/
def FirstFault (fault : List α → α → ε → Prop) (entries : List α) (e : ε) : Prop :=
  ∃ before x after, entries = before ++ x :: after ∧ fault before x e ∧
    ∀ front y rest, before = front ++ y :: rest → ∀ e', ¬fault front y e'

variable {fault : List α → α → ε → Prop} {x : α} {entries : List α} {e : ε}

theorem not_firstFault_nil : ¬FirstFault fault [] e := by
  rintro ⟨before, x, after, h, -⟩
  simp at h

theorem firstFault_cons : FirstFault fault (x :: entries) e ↔
    fault [] x e ∨ (∀ e', ¬fault [] x e') ∧ FirstFault (fun before => fault (x :: before)) entries e := by
  constructor
  · rintro ⟨before, y, after, h, hfault, hfirst⟩
    cases before with
    | nil =>
      cases h
      exact .inl hfault
    | cons z before =>
      cases h
      refine .inr ⟨hfirst [] x before rfl, before, y, after, rfl, hfault, ?_⟩
      intro front w rest hbefore
      exact hfirst (x :: front) w rest (by rw [hbefore]; rfl)
  · rintro (hfault | ⟨hx, before, y, after, rfl, hfault, hfirst⟩)
    · exact ⟨[], x, entries, rfl, hfault, by simp⟩
    · refine ⟨x :: before, y, after, rfl, hfault, fun front w rest hbefore => ?_⟩
      cases front with
      | nil =>
        cases hbefore
        exact hx
      | cons z front =>
        cases hbefore
        exact hfirst front w rest rfl

theorem forall_not_firstFault : (∀ e, ¬FirstFault fault entries e) ↔
    ∀ before x after, entries = before ++ x :: after → ∀ e, ¬fault before x e := by
  induction entries generalizing fault with
  | nil =>
    refine iff_of_true (fun _ => not_firstFault_nil) ?_
    intro before x after h
    simp at h
  | cons x entries ih =>
    simp only [firstFault_cons, not_or, not_and, forall_and]
    constructor
    · rintro ⟨hx, hrest⟩ before y after h
      cases before with
      | nil =>
        cases h
        exact hx
      | cons z before =>
        cases h
        exact ih.mp (fun e => hrest e hx) before y after rfl
    · intro h
      refine ⟨h [] x entries rfl, fun e _ => ?_⟩
      refine ih.mpr (fun before y after hentries => ?_) e
      exact h (x :: before) y after (by rw [hentries]; rfl)

namespace Outcome

theorem exists_ok_iff {step : Except ε α} : (∃ a, step = .ok a) ↔ ∀ e, step ≠ .error e := by
  cases step <;> simp

/-- A step that succeeds just with what is right, and has only one complaint, makes it where nothing is
right. -/
theorem eq_error_iff {right : α → Prop} {step : Except ε α} {complaint : ε}
    (hok : ∀ {a}, step = .ok a ↔ right a) (herror : ∀ {e}, step = .error e → e = complaint) :
    step = .error e ↔ (∀ a, ¬right a) ∧ e = complaint := by
  constructor
  · intro h
    refine ⟨fun a ha => ?_, herror h⟩
    rw [hok.mpr ha] at h
    cases h
  · rintro ⟨hnone, rfl⟩
    cases hstep : step with
    | ok a => exact absurd (hok.mp hstep) (hnone a)
    | error e' => rw [herror hstep]

theorem map_eq_error {γ : Type} {step : Except ε β} {f : β → γ} :
    step.map f = .error e ↔ step = .error e := by
  cases step <;> simp [Except.map]

theorem bind_pure_eq_error {γ : Type} {step : Except ε β} {f : β → γ} :
    (step >>= fun b => pure (f b)) = .error e ↔ step = .error e := by
  cases step <;> simp [pure, Except.pure]

/-- A list of steps fails as the first of them that fails. -/
theorem mapM_eq_error {f : α → Except ε β} {as : List α} :
    as.mapM f = .error e ↔ FirstFault (fun _ a e => f a = .error e) as e := by
  induction as with
  | nil => exact iff_of_false (fun h => by cases h) not_firstFault_nil
  | cons a as ih =>
    rw [List.mapM_cons, firstFault_cons, ← ih]
    cases f a with
    | error e' => simp
    | ok b => cases as.mapM f <;> simp [pure, Except.pure]

/-- Steps that complain about their entry alone, whatever the steps before have made, end with the first
fault. -/
theorem foldlM_eq_error {f : β → α → Except ε β} {fault : α → ε → Prop} {as : List α} {b : β}
    (h : ∀ b a e, f b a = .error e ↔ fault a e) :
    as.foldlM f b = .error e ↔ FirstFault (fun _ => fault) as e := by
  induction as generalizing b with
  | nil => exact iff_of_false (fun h => by cases h) not_firstFault_nil
  | cons a as ih =>
    rw [List.foldlM_cons, firstFault_cons, ← h b]
    cases hstep : f b a with
    | error e' =>
      have hfault : ¬∀ e', ¬fault a e' := fun hnone => hnone e' ((h b a e').mp hstep)
      simp [hfault]
    | ok b' =>
      have hfault : ∀ e', ¬fault a e' := fun e' hfault => by
        rw [(h b a e').mpr hfault] at hstep
        cases hstep
      rw [ok_bind, ih]
      simp [hfault]

/-- A step that complains about the first entry, with steps behind it that end with the first fault of the
others. -/
theorem bind_eq_firstFault {γ : Type} {step : Except ε β} {next : β → Except ε γ}
    (hstep : ∀ e, step = .error e ↔ fault [] x e)
    (hnext : ∀ b, step = .ok b → ∀ e,
      next b = .error e ↔ FirstFault (fun before => fault (x :: before)) entries e) (e : ε) :
    (step >>= next) = .error e ↔ FirstFault fault (x :: entries) e := by
  rw [firstFault_cons, ← hstep e]
  cases step with
  | error e' =>
    have hx : ¬∀ e', ¬fault [] x e' := fun h => h e' ((hstep e').mp rfl)
    simp [hx]
  | ok b =>
    have hx : ∀ e', ¬fault [] x e' := fun e' h => by cases (hstep e').mpr h
    simp [hnext b rfl e, hx]

end Outcome

end TypedTables
