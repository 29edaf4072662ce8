import Mathlib.Tactic

/-!
# Finite runs of partial step functions

A system is a function `step` that returns the next state, or `none` where the
action is not enabled. A run executes a list of actions, oldest first. `Along`
says that a condition on the state and the action holds at each of its steps.
-/
namespace NvidiaProlapse.Runs

variable {σ : Type*} {α : Type*}

/-- Execute the actions in order; `none` as soon as one is not enabled. -/
def run (step : σ → α → Option σ) : σ → List α → Option σ
  | s, [] => some s
  | s, a :: actions => (step s a).bind fun s' => run step s' actions

@[simp] lemma run_nil (step : σ → α → Option σ) (s : σ) : run step s [] = some s := rfl

lemma run_cons_eq_some {step : σ → α → Option σ} {s t : σ} {a : α} {actions : List α} :
    run step s (a :: actions) = some t ↔
      ∃ s', step s a = some s' ∧ run step s' actions = some t := by
  simp only [run, Option.bind_eq_some_iff]

/-- A system in which every action is enabled. -/
@[simp] lemma run_total (step : σ → α → σ) (s : σ) (actions : List α) :
    run (fun s a => some (step s a)) s actions = some (actions.foldl step s) := by
  induction actions generalizing s with
  | nil => rfl
  | cons a actions ih => exact ih (step s a)

/-- The condition `guard` holds where each action of the run is taken. -/
def Along (step : σ → α → Option σ) (guard : σ → α → Prop) : σ → List α → Prop
  | _, [] => True
  | s, a :: actions => guard s a ∧ ∀ s', step s a = some s' → Along step guard s' actions

section

variable {step : σ → α → Option σ}

include step

lemma along_cons_none {guard : σ → α → Prop} {s : σ} {a : α} {actions : List α}
    (h : step s a = none) : guard s a ↔ Along step guard s (a :: actions) := by
  simp [Along, h]

lemma along_cons_some {guard : σ → α → Prop} {s s' : σ} {a : α} {actions : List α}
    (h : step s a = some s') :
    guard s a ∧ Along step guard s' actions ↔ Along step guard s (a :: actions) := by
  simp [Along, h]

/-- A condition on the actions alone. -/
lemma along_of_forall {guard : α → Prop} {actions : List α} {s : σ} (h : ∀ a ∈ actions, guard a) :
    Along step (fun _ a => guard a) s actions := by
  induction actions generalizing s with
  | nil => trivial
  | cons a actions ih =>
    exact ⟨h a List.mem_cons_self, fun _ _ => ih fun b hb => h b (List.mem_cons_of_mem _ hb)⟩

end

/-- The condition is checked by executing the run. -/
instance decidableAlong (step : σ → α → Option σ) (guard : σ → α → Prop)
    [∀ s a, Decidable (guard s a)] : (s : σ) → (actions : List α) → Decidable (Along step guard s actions)
  | _, [] => .isTrue trivial
  | s, a :: actions =>
    match h : step s a with
    | none => decidable_of_iff _ (along_cons_none h)
    | some s' =>
      have := decidableAlong step guard s' actions
      decidable_of_iff _ (along_cons_some h)

section

variable {step : σ → α → Option σ}

include step

/-- A run is executed as far as a view of its last state is concerned. -/
lemma exists_run_of_view {β : Type*} {view : σ → β} {s : σ} {actions : List α} {b : β}
    (h : (run step s actions).map view = some b) : ∃ t, run step s actions = some t ∧ view t = b :=
  Option.map_eq_some_iff.mp h

/-- An invariant that only guarded steps preserve holds along guarded runs. -/
lemma run_invariant_along {guard : σ → α → Prop} {inv : σ → Prop}
    (hstep : ∀ s a s', inv s → guard s a → step s a = some s' → inv s') {s t : σ} {actions : List α}
    (hs : inv s) (hg : Along step guard s actions) (hrun : run step s actions = some t) :
    inv t := by
  induction actions generalizing s with
  | nil =>
    cases hrun
    exact hs
  | cons a actions ih =>
    obtain ⟨s', ha, hrest⟩ := run_cons_eq_some.mp hrun
    exact ih (hstep s a s' hs hg.1 ha) (hg.2 s' ha) hrest

/-- What one step preserves, a whole run preserves. -/
lemma run_invariant {inv : σ → Prop} (hstep : ∀ s a s', inv s → step s a = some s' → inv s')
    {s t : σ} {actions : List α} (hs : inv s) (hrun : run step s actions = some t) : inv t := by
  have hfree : Along step (fun _ _ => True) s actions := along_of_forall fun _ _ => trivial
  exact run_invariant_along (fun s a s' h _ => hstep s a s' h) hs hfree hrun

/-- If the guard says exactly which steps are possible and keep the invariant, then it says so
along whole runs. -/
lemma always_iff_along {guard : σ → α → Prop} {aux inv : σ → Prop}
    (haux : ∀ s a s', aux s → step s a = some s' → aux s')
    (hstep : ∀ s a, aux s → inv s → ((∃ s', step s a = some s' ∧ inv s') ↔ guard s a)) {s : σ}
    (hs : aux s) (hinv : inv s) (actions : List α) :
    (∀ before after, actions = before ++ after → ∃ t, run step s before = some t ∧ inv t) ↔
      Along step guard s actions := by
  induction actions generalizing s with
  | nil =>
    refine iff_of_true ?_ trivial
    intro before after h
    obtain ⟨rfl, -⟩ := List.append_eq_nil_iff.mp h.symm
    exact ⟨s, rfl, hinv⟩
  | cons a actions ih =>
    constructor
    · intro h
      obtain ⟨s', hrun, hs'⟩ := h [a] actions rfl
      obtain ⟨u, ha, hu⟩ := run_cons_eq_some.mp hrun
      cases hu
      refine ⟨(hstep s a hs hinv).mp ⟨s', ha, hs'⟩, ?_⟩
      intro u hu
      cases ha.symm.trans hu
      refine (ih (haux s a s' hs ha) hs').mp ?_
      intro before after heq
      obtain ⟨t, hrun, ht⟩ := h (a :: before) after (by rw [heq, List.cons_append])
      obtain ⟨v, hv, hrest⟩ := run_cons_eq_some.mp hrun
      cases ha.symm.trans hv
      exact ⟨t, hrest, ht⟩
    · rintro ⟨hg, hrest⟩ before after heq
      obtain ⟨s', ha, hs'⟩ := (hstep s a hs hinv).mpr hg
      cases before with
      | nil => exact ⟨s, rfl, hinv⟩
      | cons first before =>
        cases heq
        obtain ⟨t, hrun, ht⟩ := (ih (haux s a s' hs ha) hs').mpr (hrest s' ha) before after rfl
        exact ⟨t, run_cons_eq_some.mpr ⟨s', ha, hrun⟩, ht⟩

end

end NvidiaProlapse.Runs
