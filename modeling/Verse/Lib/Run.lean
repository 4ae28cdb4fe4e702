import Mathlib.Data.Option.Basic
import Mathlib.Tactic.Common

/-!
# Runs of a partial step function

A component is a step function that takes a state and an action and may fail.
`run` takes the actions one after the other, and `trace` also collects what every
step gives out.

A property of the states a run reaches is proved by `run_induction`; when it
holds only as long as the actions meet a condition on the state before them, that
condition is the guard of `Admissible`.
-/

namespace Verse.Lib

variable {σ τ α ο : Type*}

/-- The state after a list of actions. -/
def run (step : σ → α → Option σ) : σ → List α → Option σ
  | s, [] => some s
  | s, a :: rest => (step s a).bind fun s' => run step s' rest

/-- Every action of the run meets `guard` in the state in which it is taken. -/
def Admissible (step : σ → α → Option σ) (guard : σ → α → Prop) : σ → List α → Prop
  | _, [] => True
  | s, a :: rest => guard s a ∧ ∀ s', step s a = some s' → Admissible step guard s' rest

@[simp] theorem run_nil (step : σ → α → Option σ) (s : σ) : run step s [] = some s := rfl

theorem run_cons {step : σ → α → Option σ} {s s' : σ} {a : α} (h : step s a = some s')
    (rest : List α) : run step s (a :: rest) = run step s' rest := by
  simp [run, h]

theorem run_append (step : σ → α → Option σ) (s : σ) (xs ys : List α) :
    run step s (xs ++ ys) = (run step s xs).bind fun s' => run step s' ys := by
  induction xs generalizing s with
  | nil => rfl
  | cons a rest ih =>
      cases h : step s a with
      | none => simp [run, h]
      | some s' => simp [run, h, ih]

/-- An action that goes through, and the ones behind it. -/
theorem admissible_cons_of_some {step : σ → α → Option σ} {guard : σ → α → Prop} {s s' : σ} {a : α}
    (h : step s a = some s') (rest : List α) :
    Admissible step guard s (a :: rest) ↔ guard s a ∧ Admissible step guard s' rest := by
  refine and_congr_right fun _ => ⟨fun hall => hall s' h, fun hrest t ht => ?_⟩
  rw [← Option.some.inj (h.symm.trans ht)]
  exact hrest

/-- A run with a guard that can be decided. -/
instance decidableAdmissible (step : σ → α → Option σ) (guard : σ → α → Prop)
    [∀ s a, Decidable (guard s a)] : ∀ s actions, Decidable (Admissible step guard s actions)
  | _, [] => isTrue trivial
  | s, a :: rest =>
      match h : step s a with
      | none =>
          decidable_of_iff (guard s a)
            ⟨fun hguard => ⟨hguard, fun _ ht => absurd (h.symm.trans ht) (Option.some_ne_none _).symm⟩,
              And.left⟩
      | some s' =>
          haveI := decidableAdmissible step guard s' rest
          decidable_of_iff (guard s a ∧ Admissible step guard s' rest)
            (admissible_cons_of_some h rest).symm

/-- The actions after the first ones. -/
theorem Admissible.append_right {step : σ → α → Option σ} {guard : σ → α → Prop} {s s' : σ}
    {xs ys : List α} (h : Admissible step guard s (xs ++ ys)) (hrun : run step s xs = some s') :
    Admissible step guard s' ys := by
  induction xs generalizing s with
  | nil =>
      obtain rfl := Option.some.inj hrun
      exact h
  | cons a rest ih =>
      cases hs : step s a with
      | none => simp [run, hs] at hrun
      | some s₁ =>
          rw [run_cons hs] at hrun
          exact ih (h.2 s₁ hs) hrun

/-- The first actions. -/
theorem Admissible.append_left {step : σ → α → Option σ} {guard : σ → α → Prop} {s : σ}
    {xs ys : List α} (h : Admissible step guard s (xs ++ ys)) : Admissible step guard s xs := by
  induction xs generalizing s with
  | nil => trivial
  | cons a rest ih => exact ⟨h.1, fun s' hs' => ih (h.2 s' hs')⟩

/-- A property of all actions may be added to the guard. -/
theorem Admissible.and_forall {step : σ → α → Option σ} {guard : σ → α → Prop} {p : α → Prop}
    {s : σ} {actions : List α} (h : Admissible step guard s actions) (hall : ∀ a ∈ actions, p a) :
    Admissible step (fun s a => guard s a ∧ p a) s actions := by
  induction actions generalizing s with
  | nil => trivial
  | cons a rest ih =>
      exact ⟨⟨h.1, hall a (by simp)⟩, fun s' hs' =>
        ih (h.2 s' hs') fun b hb => hall b (by simp [hb])⟩

/-- Guards that mean the same admit the same runs. -/
theorem admissible_congr {step : σ → α → Option σ} {guard guard' : σ → α → Prop}
    (hiff : ∀ s a, guard s a ↔ guard' s a) (s : σ) (actions : List α) :
    Admissible step guard s actions ↔ Admissible step guard' s actions := by
  induction actions generalizing s with
  | nil => exact Iff.rfl
  | cons a rest ih =>
      exact and_congr (hiff s a) (forall_congr' fun s' => forall_congr' fun _ => ih s')

/-- Guards that mean the same as long as an invariant holds, which guarded steps keep,
admit the same runs from a state with the invariant. -/
theorem admissible_congr_of_invariant {step : σ → α → Option σ} {guard guard' : σ → α → Prop}
    {inv : σ → Prop} (hiff : ∀ s a, inv s → (guard s a ↔ guard' s a))
    (hstep : ∀ s a s', inv s → guard s a → step s a = some s' → inv s') {s : σ} (hinit : inv s)
    (actions : List α) :
    Admissible step guard s actions ↔ Admissible step guard' s actions := by
  induction actions generalizing s with
  | nil => exact Iff.rfl
  | cons a rest ih =>
      refine and_congr_right_iff.mpr (fun hguard => ?_) |>.trans (and_congr_left' (hiff s a hinit))
      exact forall_congr' fun s' => forall_congr' fun hs' => ih (hstep s a s' hinit hguard hs')

/-- Guards that mean the same for steps that go through, as long as an invariant holds that
steps keep, admit the same runs that go through. -/
theorem admissible_congr_of_run {step : σ → α → Option σ} {guard guard' : σ → α → Prop}
    {inv : σ → Prop}
    (hiff : ∀ s a s', inv s → step s a = some s' → (guard s a ↔ guard' s a))
    (hstep : ∀ s a s', inv s → step s a = some s' → inv s') {s s' : σ} (hinit : inv s)
    {actions : List α} (hrun : run step s actions = some s') :
    Admissible step guard s actions ↔ Admissible step guard' s actions := by
  induction actions generalizing s with
  | nil => exact Iff.rfl
  | cons a rest ih =>
      obtain ⟨s₁, hs₁, hrest⟩ := Option.bind_eq_some_iff.mp hrun
      have hih := ih (hstep s a s₁ hinit hs₁) hrest
      refine and_congr (hiff s a s₁ hinit hs₁) (forall_congr' fun t => imp_congr_right fun ht => ?_)
      obtain rfl := Option.some.inj (hs₁.symm.trans ht)
      exact hih

/-- **Invariant rule.**  A property that guarded steps keep, and that lets them go
through, holds at the end of every admissible run. -/
theorem run_induction {step : σ → α → Option σ} {guard : σ → α → Prop} {inv : σ → Prop}
    (hstep : ∀ s a, inv s → guard s a → ∃ s', step s a = some s' ∧ inv s')
    {s : σ} {actions : List α} (hinit : inv s) (hadm : Admissible step guard s actions) :
    ∃ s', run step s actions = some s' ∧ inv s' := by
  induction actions generalizing s with
  | nil => exact ⟨s, rfl, hinit⟩
  | cons a rest ih =>
      obtain ⟨s₁, hs₁, hinv₁⟩ := hstep s a hinit hadm.1
      obtain ⟨s₂, hs₂, hinv₂⟩ := ih hinv₁ (hadm.2 s₁ hs₁)
      exact ⟨s₂, by rw [run_cons hs₁, hs₂], hinv₂⟩

/-- **Invariant rule** for the states that are reached: the steps need not go
through. -/
theorem run_invariant {step : σ → α → Option σ} {guard : σ → α → Prop} {inv : σ → Prop}
    (hstep : ∀ s a s', inv s → guard s a → step s a = some s' → inv s')
    {s s' : σ} {actions : List α} (hinit : inv s) (hadm : Admissible step guard s actions)
    (hrun : run step s actions = some s') : inv s' := by
  induction actions generalizing s with
  | nil =>
      obtain rfl := Option.some.inj hrun
      exact hinit
  | cons a rest ih =>
      obtain ⟨s₁, hs₁, hrest⟩ := Option.bind_eq_some_iff.mp hrun
      exact ih (hstep s a s₁ hinit hadm.1 hs₁) (hadm.2 s₁ hs₁) hrest

/-- A property that all steps keep holds in all states that are reached. -/
theorem run_keeps {step : σ → α → Option σ} {inv : σ → Prop}
    (hstep : ∀ s a s', inv s → step s a = some s' → inv s')
    {s s' : σ} {actions : List α} (hinit : inv s) (hrun : run step s actions = some s') : inv s' := by
  induction actions generalizing s with
  | nil =>
      obtain rfl := Option.some.inj hrun
      exact hinit
  | cons a rest ih =>
      obtain ⟨s₁, hs₁, hrest⟩ := Option.bind_eq_some_iff.mp hrun
      exact ih (hstep s a s₁ hinit hs₁) hrest

/-! ## Runs beside a specification -/

/-- The run goes through, and the state is related to what the specification says at the
start and after every action. -/
def RunsAlong (step : σ → α → Option σ) (next : τ → α → τ) (related : σ → τ → Prop) :
    σ → τ → List α → Prop
  | s, t, [] => related s t
  | s, t, a :: rest =>
      related s t ∧ ∃ s', step s a = some s' ∧ RunsAlong step next related s' (next t a) rest

/-- **Exact guards.**  If a step that is allowed keeps the relation exactly under the guard,
a run keeps it exactly if every step meets the guard. -/
theorem runsAlong_iff {step : σ → α → Option σ} {next : τ → α → τ} {related : σ → τ → Prop}
    {guard : σ → α → Prop} {allowed : τ → α → Prop} {inv : τ → Prop}
    (hstep : ∀ s t a, related s t → inv t → allowed t a →
      ((∃ s', step s a = some s' ∧ related s' (next t a)) ↔ guard s a))
    (hinv : ∀ t a, inv t → allowed t a → inv (next t a)) {s : σ} {t : τ} {actions : List α}
    (hrel : related s t) (ht : inv t)
    (hallowed : Admissible (fun t a => some (next t a)) allowed t actions) :
    RunsAlong step next related s t actions ↔ Admissible step guard s actions := by
  induction actions generalizing s t with
  | nil => exact iff_of_true hrel trivial
  | cons a rest ih =>
      have hiff := hstep s t a hrel ht hallowed.1
      have hrest := fun s' hrel' => @ih s' (next t a) hrel' (hinv t a ht hallowed.1)
        (hallowed.2 (next t a) rfl)
      constructor
      · rintro ⟨-, s', hs', halong⟩
        have hrel' : related s' (next t a) := by
          cases rest with
          | nil => exact halong
          | cons b rest => exact halong.1
        refine ⟨hiff.mp ⟨s', hs', hrel'⟩, fun s'' hs'' => ?_⟩
        obtain rfl := Option.some.inj (hs'.symm.trans hs'')
        exact (hrest s' hrel').mp halong
      · rintro ⟨hguard, hadm⟩
        obtain ⟨s', hs', hrel'⟩ := hiff.mpr hguard
        exact ⟨hrel, s', hs', (hrest s' hrel').mpr (hadm s' hs')⟩

/-! ## Steps with an output -/

/-- The state after a list of actions, and what the steps gave out. -/
def trace (step : σ → α → Option (σ × ο)) : σ → List α → Option (σ × List ο)
  | s, [] => some (s, [])
  | s, a :: rest =>
      (step s a).bind fun (s', o) => (trace step s' rest).map fun (s'', os) => (s'', o :: os)

/-- Two step functions agree on related states: both fail, or both give out the
same and go to related states. -/
def StepsAgree (related : σ → τ → Prop) (step : σ → α → Option (σ × ο))
    (step' : τ → α → Option (τ × ο)) : Prop :=
  ∀ s t, related s t → ∀ a,
    (step s a = none ∧ step' t a = none) ∨
      ∃ s' t' o, step s a = some (s', o) ∧ step' t a = some (t', o) ∧ related s' t'

/-- **Simulation rule.**  Step functions that agree have the same runs. -/
theorem trace_agree {related : σ → τ → Prop} {step : σ → α → Option (σ × ο)}
    {step' : τ → α → Option (τ × ο)} (hagree : StepsAgree related step step') {s : σ} {t : τ}
    (hrel : related s t) (actions : List α) :
    (trace step s actions = none ∧ trace step' t actions = none) ∨
      ∃ s' t' os, trace step s actions = some (s', os) ∧ trace step' t actions = some (t', os) ∧
        related s' t' := by
  induction actions generalizing s t with
  | nil => exact Or.inr ⟨s, t, [], rfl, rfl, hrel⟩
  | cons a rest ih =>
      rcases hagree s t hrel a with ⟨hs, ht⟩ | ⟨s₁, t₁, o, hs, ht, hrel₁⟩
      · exact Or.inl ⟨by simp [trace, hs], by simp [trace, ht]⟩
      · rcases ih hrel₁ with ⟨hs₁, ht₁⟩ | ⟨s₂, t₂, os, hs₁, ht₁, hrel₂⟩
        · exact Or.inl ⟨by simp [trace, hs, hs₁], by simp [trace, ht, ht₁]⟩
        · exact Or.inr ⟨s₂, t₂, o :: os, by simp [trace, hs, hs₁], by simp [trace, ht, ht₁], hrel₂⟩

end Verse.Lib
