import Mathlib.Data.List.Basic
import Mathlib.Logic.Function.Basic
import Verse.Lib.Run

/-!
# Replicas

A source holds values under keys, and tells others about them by notices: a notice sets
the value of a key, or removes it.  A replica is what has been heard of the values; it may
start with anything.

## Strategy

What the source owes to the replica is a relation `held` between keys and values, which
changes with the state of the source.  A replica shows it when it has every value that is
held; it may have more.  `Relays held log held'` says that the notices in `log` keep every
replica right while the source goes from `held` to `held'`.  These compose, so that it is
enough to look at one step of the source (`run_relays`); and for one step it is enough that
whatever is held afterwards is in the notices of its key, or was held before and is in none
(`relays_of_each`).
-/

namespace Verse.Lib

variable {κ ν : Type*} [DecidableEq κ]

/-! ## Replicas and notices -/

/-- A notice: the new value of a key, or none when it is removed. -/
abbrev Notice (κ ν : Type*) := κ × Option ν

abbrev Replica (κ ν : Type*) := κ → Option ν

def Replica.hear (R : Replica κ ν) (n : Notice κ ν) : Replica κ ν := Function.update R n.1 n.2

def Replica.hearAll (R : Replica κ ν) (log : List (Notice κ ν)) : Replica κ ν := log.foldl Replica.hear R

theorem Replica.hearAll_append (R : Replica κ ν) (log log' : List (Notice κ ν)) :
    R.hearAll (log ++ log') = (R.hearAll log).hearAll log' := by
  simp only [Replica.hearAll, List.foldl_append]

/-- Notices of other keys do not matter. -/
theorem Replica.hearAll_of_ne {R : Replica κ ν} {log : List (Notice κ ν)} {k : κ}
    (h : ∀ n ∈ log, n.1 ≠ k) : R.hearAll log k = R k := by
  induction log generalizing R with
  | nil => rfl
  | cons n rest ih =>
      have hrest : (R.hear n).hearAll rest k = R.hear n k := ih fun m hm => h m (List.mem_cons_of_mem n hm)
      have hhead : R.hear n k = R k := Function.update_of_ne (h n List.mem_cons_self).symm _ _
      exact hrest.trans hhead

/-- When all notices of a key say the same, the replica has that. -/
theorem Replica.hearAll_of_mem {R : Replica κ ν} {log : List (Notice κ ν)} {k : κ} {v : Option ν}
    (hsame : ∀ n ∈ log, n.1 = k → n.2 = v) (hmem : ∃ n ∈ log, n.1 = k) : R.hearAll log k = v := by
  induction log generalizing R with
  | nil =>
      obtain ⟨n, hn, -⟩ := hmem
      cases hn
  | cons n rest ih =>
      have hrest : ∀ m ∈ rest, m.1 = k → m.2 = v := fun m hm => hsame m (List.mem_cons_of_mem n hm)
      by_cases hlater : ∃ m ∈ rest, m.1 = k
      · exact ih hrest hlater
      · -- the first notice is the last one of the key
        have hne : ∀ m ∈ rest, m.1 ≠ k := fun m hm hk => hlater ⟨m, hm, hk⟩
        have hkey : n.1 = k := by
          obtain ⟨m, hm, hk⟩ := hmem
          rcases List.mem_cons.mp hm with rfl | hm
          · exact hk
          · exact absurd hk (hne m hm)
        have hhead : R.hear n k = v := by
          rw [← hsame n List.mem_cons_self hkey, ← hkey]
          exact Function.update_self _ _ _
        exact (Replica.hearAll_of_ne hne).trans hhead

/-! ## What is held -/

/-- The replica has every value that is held. -/
def Replica.Shows (R : Replica κ ν) (held : κ → ν → Prop) : Prop := ∀ k v, held k v → R k = some v

/-- The notices keep a replica right while what is held changes. -/
def Relays (held : κ → ν → Prop) (log : List (Notice κ ν)) (held' : κ → ν → Prop) : Prop :=
  ∀ R : Replica κ ν, R.Shows held → (R.hearAll log).Shows held'

variable {held held' held'' : κ → ν → Prop} {log log' : List (Notice κ ν)}

theorem Relays.trans (h : Relays held log held') (h' : Relays held' log' held'') :
    Relays held (log ++ log') held'' := by
  intro R hR
  rw [Replica.hearAll_append]
  exact h' _ (h R hR)

/-- Nothing is said, and nothing is held that was not held before. -/
theorem relays_nil (h : ∀ k v, held' k v → held k v) : Relays held [] held' :=
  fun _ hR k v hkv => hR k v (h k v hkv)

/-- **One step.**  What is held afterwards is in all notices of its key; without any, it was
held before. -/
theorem relays_of_each (hsame : ∀ k v, held' k v → ∀ n ∈ log, n.1 = k → n.2 = some v)
    (hold : ∀ k v, held' k v → (∃ n ∈ log, n.1 = k) ∨ held k v) : Relays held log held' := by
  intro R hR k v hkv
  by_cases hmem : ∃ n ∈ log, n.1 = k
  · exact Replica.hearAll_of_mem (hsame k v hkv) hmem
  · have hne : ∀ n ∈ log, n.1 ≠ k := fun n hn hk => hmem ⟨n, hn, hk⟩
    rw [Replica.hearAll_of_ne hne]
    exact hR k v ((hold k v hkv).resolve_left hmem)

/-! ## Runs -/

/-- **Runs.**  A source whose steps say what they change keeps the replicas right.  `said` is
what has been said in a state, of which there is only ever more, and some of it are notices. -/
theorem run_relays {σ α ρ : Type*} {step : σ → α → Option σ} {ok : α → Prop} {inv : σ → Prop}
    (said : σ → List ρ) (notice : ρ → Option (Notice κ ν)) (held : σ → κ → ν → Prop)
    (hstep : ∀ s a s', inv s → ok a → step s a = some s' →
      inv s' ∧ ∃ log, said s' = said s ++ log ∧ Relays (held s) (log.filterMap notice) (held s'))
    {s s' : σ} {actions : List α} (hinv : inv s) (hok : ∀ a ∈ actions, ok a)
    (hrun : run step s actions = some s') :
    ∃ log, said s' = said s ++ log ∧ Relays (held s) (log.filterMap notice) (held s') := by
  induction actions generalizing s with
  | nil =>
      obtain rfl := Option.some.inj hrun
      exact ⟨[], (List.append_nil _).symm, relays_nil fun _ _ h => h⟩
  | cons a rest ih =>
      obtain ⟨t, ht, hrest⟩ := Option.bind_eq_some_iff.mp hrun
      obtain ⟨hinv', log, hlog, hrelays⟩ := hstep s a t hinv (hok a List.mem_cons_self) ht
      obtain ⟨log', hlog', hrelays'⟩ := ih hinv' (fun b hb => hok b (List.mem_cons_of_mem a hb)) hrest
      refine ⟨log ++ log', ?_, ?_⟩
      · rw [hlog', hlog, List.append_assoc]
      · rw [List.filterMap_append]
        exact hrelays.trans hrelays'

end Verse.Lib
