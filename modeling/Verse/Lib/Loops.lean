import Mathlib.Data.List.Basic
import Mathlib.Logic.Relation
import Mathlib.Tactic.Common

/-!
# Loops over lists

A loop that may fail is a `foldlM` in `Option`, and one that may not is a `foldl`.
What holds between the states before and after the loop is proved by `foldlM_rel`
and `foldl_rel`: the relation is reflexive and transitive, and the body of the loop
keeps it.  The body may use that it stands in the relation to the state before the
loop.
-/

namespace Verse.Lib

variable {σ α : Type*}

theorem foldlM_cons_eq_some {f : σ → α → Option σ} {s s' : σ} {x : α} {l : List α} :
    (x :: l).foldlM f s = some s' ↔ ∃ t, f s x = some t ∧ l.foldlM f t = some s' := by
  rw [List.foldlM_cons]
  exact Option.bind_eq_some_iff

/-- **Loop rule.**  A reflexive and transitive relation that the body of a loop keeps
holds between the states before and after the loop. -/
theorem foldlM_rel {R : σ → σ → Prop} (hrefl : ∀ s, R s s)
    (htrans : ∀ {s t u}, R s t → R t u → R s u) {f : σ → α → Option σ} {l : List α} {s s' : σ}
    (hbody : ∀ t x t', x ∈ l → R s t → f t x = some t' → R t t')
    (h : l.foldlM f s = some s') : R s s' := by
  -- the induction is on the rest of the list, from any state related to the first one
  suffices hrest : ∀ (rest : List α) (t : σ), rest ⊆ l → R s t →
      rest.foldlM f t = some s' → R s s' from hrest l s (List.Subset.refl l) (hrefl s) h
  intro rest
  induction rest with
  | nil =>
      intro t _ hst hloop
      obtain rfl := Option.some.inj hloop
      exact hst
  | cons x rest ih =>
      intro t hsub hst hloop
      obtain ⟨t', ht', hloop'⟩ := foldlM_cons_eq_some.mp hloop
      have hx : R t t' := hbody t x t' (hsub (by simp)) hst ht'
      exact ih t' (fun y hy => hsub (by simp [hy])) (htrans hst hx) hloop'

/-- The loop rule for a loop that does not fail. -/
theorem foldl_rel {R : σ → σ → Prop} (hrefl : ∀ s, R s s)
    (htrans : ∀ {s t u}, R s t → R t u → R s u) {f : σ → α → σ} {l : List α}
    (hbody : ∀ t x, x ∈ l → R t (f t x)) (s : σ) : R s (l.foldl f s) := by
  induction l generalizing s with
  | nil => exact hrefl s
  | cons x rest ih =>
      exact htrans (hbody s x (by simp)) (ih (fun t y hy => hbody t y (by simp [hy])) (f s x))

/-- A property that the body of a loop keeps holds after the loop. -/
theorem foldlM_invariant {P : σ → Prop} {f : σ → α → Option σ} {l : List α} {s s' : σ}
    (hbody : ∀ t x t', x ∈ l → P t → f t x = some t' → P t') (hinit : P s)
    (h : l.foldlM f s = some s') : P s' := by
  refine foldlM_rel (R := fun s t => P s → P t) (fun _ h => h) (fun h₁ h₂ h => h₂ (h₁ h))
    (fun t x t' hx hst hf hinv => hbody t x t' hx hinv hf) h hinit

/-- What the body of a loop establishes for each item, and its later rounds keep, holds
for all items after the loop. -/
theorem foldlM_all {R : σ → σ → Prop} {P : α → σ → Prop} (hrefl : ∀ s, R s s)
    (htrans : ∀ {s t u}, R s t → R t u → R s u) (hstable : ∀ x t u, R t u → P x t → P x u)
    {f : σ → α → Option σ} {l : List α} {s s' : σ}
    (hbody : ∀ t x t', x ∈ l → R s t → f t x = some t' → R t t' ∧ P x t')
    (h : l.foldlM f s = some s') : R s s' ∧ ∀ x ∈ l, P x s' := by
  suffices hrest : ∀ (rest : List α) (t : σ), rest ⊆ l → R s t →
      rest.foldlM f t = some s' → R t s' ∧ ∀ x ∈ rest, P x s' from
    hrest l s (List.Subset.refl l) (hrefl s) h
  intro rest
  induction rest with
  | nil =>
      intro t _ _ hloop
      obtain rfl := Option.some.inj hloop
      exact ⟨hrefl t, fun _ hx => by cases hx⟩
  | cons x rest ih =>
      intro t hsub hst hloop
      obtain ⟨t', ht', hloop'⟩ := foldlM_cons_eq_some.mp hloop
      obtain ⟨hround, hx⟩ := hbody t x t' (hsub (by simp)) hst ht'
      obtain ⟨hlater, hall⟩ := ih t' (fun y hy => hsub (by simp [hy])) (htrans hst hround) hloop'
      refine ⟨htrans hround hlater, fun y hy => ?_⟩
      rcases List.mem_cons.mp hy with rfl | hy
      · exact hstable y t' s' hlater hx
      · exact hall y hy

/-- A loop that goes through has had a round for every item. -/
theorem foldlM_round {R : σ → σ → Prop} (hrefl : ∀ s, R s s)
    (htrans : ∀ {s t u}, R s t → R t u → R s u) {f : σ → α → Option σ} {l : List α} {s s' : σ}
    (hbody : ∀ t x t', x ∈ l → R s t → f t x = some t' → R t t')
    (h : l.foldlM f s = some s') {x : α} (hx : x ∈ l) : ∃ t t', R s t ∧ f t x = some t' :=
  (foldlM_all (P := fun x _ => ∃ t t', R s t ∧ f t x = some t') hrefl htrans
    (fun _ _ _ _ hround => hround)
    (fun t x t' hx hst hf => ⟨hbody t x t' hx hst hf, t, t', hst, hf⟩) h).2 x hx

/-- A loop goes through when its body does, as long as an invariant holds. -/
theorem foldlM_total {inv : σ → Prop} {f : σ → α → Option σ} {l : List α}
    (hbody : ∀ t x, x ∈ l → inv t → ∃ t', f t x = some t' ∧ inv t') {s : σ} (hinit : inv s) :
    ∃ s', l.foldlM f s = some s' ∧ inv s' := by
  induction l generalizing s with
  | nil => exact ⟨s, rfl, hinit⟩
  | cons x rest ih =>
      obtain ⟨t, ht, hinv⟩ := hbody s x (by simp) hinit
      obtain ⟨s', hs', hinv'⟩ := ih (fun t y hy => hbody t y (by simp [hy])) hinv
      exact ⟨s', foldlM_cons_eq_some.mpr ⟨t, ht, hs'⟩, hinv'⟩

/-- What a `mapM` that goes through maps its items to is in its result. -/
theorem mem_of_mapM_eq_some {β : Type*} {f : α → Option β} {l : List α} {l' : List β}
    (h : l.mapM f = some l') {x : α} (hx : x ∈ l) : ∃ y ∈ l', f x = some y := by
  induction l generalizing l' with
  | nil => cases hx
  | cons a rest ih =>
      rw [List.mapM_cons] at h
      obtain ⟨b, hb, h⟩ := Option.bind_eq_some_iff.mp h
      obtain ⟨rest', hrest, h⟩ := Option.bind_eq_some_iff.mp h
      obtain rfl := Option.some.inj h
      rcases List.mem_cons.mp hx with rfl | hx
      · exact ⟨b, by simp, hb⟩
      · obtain ⟨y, hy, hfy⟩ := ih hrest hx
        exact ⟨y, List.mem_cons_of_mem b hy, hfy⟩

/-- A `mapM` goes through if every item is mapped to something. -/
theorem exists_mapM_eq_some {β : Type*} {f : α → Option β} {l : List α}
    (h : ∀ x ∈ l, ∃ y, f x = some y) : ∃ l', l.mapM f = some l' := by
  induction l with
  | nil => exact ⟨[], rfl⟩
  | cons x rest ih =>
      obtain ⟨y, hy⟩ := h x (by simp)
      obtain ⟨rest', hrest⟩ := ih fun z hz => h z (by simp [hz])
      refine ⟨y :: rest', ?_⟩
      rw [List.mapM_cons, hy, Option.bind_eq_bind, Option.bind_some, hrest]
      rfl

/-- A `mapM` goes through, and its result corresponds to another list, if every item is mapped to
something that corresponds to the item of the other list. -/
theorem exists_mapM_of_forall₂ {β γ : Type*} {R : α → β → Prop} {S : β → γ → Prop} {f : α → Option γ}
    {l : List α} {l' : List β} (h : List.Forall₂ R l l') (hf : ∀ x y, R x y → ∃ z, f x = some z ∧ S y z) :
    ∃ l'', l.mapM f = some l'' ∧ List.Forall₂ S l' l'' := by
  induction h with
  | nil => exact ⟨[], rfl, List.Forall₂.nil⟩
  | cons hxy _ ih =>
      obtain ⟨z, hz, hS⟩ := hf _ _ hxy
      obtain ⟨rest, hrest, hall⟩ := ih
      refine ⟨z :: rest, ?_, List.Forall₂.cons hS hall⟩
      rw [List.mapM_cons, hz, Option.bind_eq_bind, Option.bind_some, hrest]
      rfl

/-- A `mapM` over one list is a `mapM` over another one that corresponds to it. -/
theorem mapM_eq_of_forall₂ {β γ : Type*} {R : α → β → Prop} {f : α → Option γ} {g : β → Option γ}
    {l : List α} {l' : List β} (h : List.Forall₂ R l l') (hfg : ∀ x y, R x y → f x = g y) :
    l.mapM f = l'.mapM g := by
  induction h with
  | nil => rfl
  | cons hxy _ ih => rw [List.mapM_cons, List.mapM_cons, hfg _ _ hxy, ih]

end Verse.Lib
