import Verse.Lib.Loops

/-!
# Walks

A program visits places one after the other, and what it has visited determines its state:
`state xs` is the state after the visits `xs`.  Whether it can make a visit depends on the
visits before.

`Walks` says exactly what such a program does, also when it fails, so that the walk of a
program is put together from the walks of its parts.
-/

namespace Verse.Lib

variable {σ α β : Type*}

/-- After the visits `xs`, each of the visits `ys` can be made when its turn comes. -/
def Passable (can : List α → α → Prop) : List α → List α → Prop
  | _, [] => True
  | xs, y :: ys => can xs y ∧ Passable can (xs ++ [y]) ys

theorem passable_append {can : List α → α → Prop} {xs ys zs : List α} :
    Passable can xs (ys ++ zs) ↔ Passable can xs ys ∧ Passable can (xs ++ ys) zs := by
  induction ys generalizing xs with
  | nil => simp [Passable]
  | cons y ys ih => simp [Passable, ih, and_assoc]

/-- A visit in the middle of a walk. -/
theorem passable_iff {can : List α → α → Prop} {xs zs : List α} :
    Passable can xs zs ↔ ∀ ys y rest, zs = ys ++ y :: rest → can (xs ++ ys) y := by
  induction zs generalizing xs with
  | nil => simp [Passable]
  | cons z zs ih =>
      rw [Passable, ih]
      constructor
      · rintro ⟨hz, hzs⟩ ys y rest heq
        rcases List.cons_eq_append_iff.mp heq with ⟨rfl, heq⟩ | ⟨ys', rfl, rfl⟩
        · obtain ⟨rfl, -⟩ := List.cons.inj heq
          rwa [List.append_nil]
        · have hy := hzs ys' y rest rfl
          rwa [List.append_assoc] at hy
      · intro hall
        refine ⟨by simpa using hall [] z zs rfl, ?_⟩
        rintro ys y rest rfl
        rw [List.append_assoc]
        exact hall (z :: ys) y rest rfl

variable {state : List α → σ} {can : List α → α → Prop} {f g : σ → Option σ} {xs ys zs : List α}

/-- After the visits `xs` the program makes the visits `ys`, and it fails when it comes to one
that it cannot make. -/
def Walks (state : List α → σ) (can : List α → α → Prop) (f : σ → Option σ) (xs ys : List α) :
    Prop :=
  ∀ s', f (state xs) = some s' ↔ Passable can xs ys ∧ s' = state (xs ++ ys)

theorem Walks.stay (h : f (state xs) = some (state xs)) : Walks state can f xs [] := by
  intro s'
  rw [h, List.append_nil, Option.some.injEq]
  exact ⟨fun heq => ⟨trivial, heq.symm⟩, fun heq => heq.2.symm⟩

theorem Walks.visit {y : α} (hcan : can xs y) (h : f (state xs) = some (state (xs ++ [y]))) :
    Walks state can f xs [y] := by
  intro s'
  rw [h, Option.some.injEq]
  exact ⟨fun heq => ⟨⟨hcan, trivial⟩, heq.symm⟩, fun heq => heq.2.symm⟩

theorem Walks.congr (h : Walks state can f xs ys) (heq : g (state xs) = f (state xs)) :
    Walks state can g xs ys := by
  intro s'
  rw [heq]
  exact h s'

/-- One part of the walk and then another. -/
theorem Walks.bind (hf : Walks state can f xs ys) (hg : Walks state can g (xs ++ ys) zs) :
    Walks state can (fun s => (f s).bind g) xs (ys ++ zs) := by
  intro s'
  rw [Option.bind_eq_some_iff, passable_append, ← List.append_assoc]
  constructor
  · rintro ⟨t, ht, hs'⟩
    obtain ⟨hys, rfl⟩ := (hf t).mp ht
    obtain ⟨hzs, rfl⟩ := (hg s').mp hs'
    exact ⟨⟨hys, hzs⟩, rfl⟩
  · rintro ⟨⟨hys, hzs⟩, rfl⟩
    exact ⟨_, (hf _).mpr ⟨hys, rfl⟩, (hg _).mpr ⟨hzs, rfl⟩⟩

/-- A loop whose rounds walk one after the other. -/
theorem Walks.foldlM {f : σ → β → Option σ} {visits : β → List α} {l : List β}
    (h : ∀ l₁ b l₂, l = l₁ ++ b :: l₂ →
      Walks state can (fun s => f s b) (xs ++ l₁.flatMap visits) (visits b)) :
    Walks state can (fun s => l.foldlM f s) xs (l.flatMap visits) := by
  induction l generalizing xs with
  | nil => exact Walks.stay rfl
  | cons b l ih =>
      have hfirst : Walks state can (fun s => f s b) xs (visits b) := by
        simpa using h [] b l rfl
      have hrest : Walks state can (fun s => l.foldlM f s) (xs ++ visits b) (l.flatMap visits) := by
        refine ih fun l₁ b' l₂ hl => ?_
        rw [List.append_assoc, ← List.flatMap_cons]
        exact h (b :: l₁) b' l₂ (by rw [hl, List.cons_append])
      exact (hfirst.bind hrest).congr List.foldlM_cons

/-- A loop with a round for each of the places of a list that are found. -/
theorem Walks.foldlM_filterMap {γ : Type*} {look : γ → Option β} {f : σ → γ → Option σ}
    {visits : β → List α} {l : List γ} (hlook : ∀ c ∈ l, (look c).isSome)
    (h : ∀ l₁ c b l₂, l = l₁ ++ c :: l₂ → look c = some b →
      Walks state can (fun s => f s c) (xs ++ (l₁.filterMap look).flatMap visits) (visits b)) :
    Walks state can (fun s => l.foldlM f s) xs ((l.filterMap look).flatMap visits) := by
  have hflat : ∀ l' ⊆ l, (l'.filterMap look).flatMap visits =
      l'.flatMap fun c => ((look c).map visits).getD [] := by
    intro l' hl'
    induction l' with
    | nil => rfl
    | cons c l' ih =>
        obtain ⟨b, hb⟩ := Option.isSome_iff_exists.mp (hlook c (hl' (by simp)))
        rw [List.filterMap_cons_some hb, List.flatMap_cons, List.flatMap_cons, hb,
          ih fun x hx => hl' (List.mem_cons_of_mem c hx)]
        rfl
  rw [hflat l (List.Subset.refl l)]
  refine Walks.foldlM fun l₁ c l₂ hl => ?_
  obtain ⟨b, hb⟩ := Option.isSome_iff_exists.mp (hlook c (by rw [hl]; simp))
  rw [hb, ← hflat l₁ (by rw [hl]; exact List.subset_append_left _ _)]
  exact h l₁ c b l₂ hl hb

end Verse.Lib
