import Mathlib.Data.List.Nodup
import Mathlib.Logic.Function.Basic
import Mathlib.Tactic.Common

/-!
# Tables that own their items

A heap of tables, each a list of keys and addresses, and a heap of items, each with its
key.  `Owned` says that the tables list items that are in memory under their own keys, no
key twice, and that no item is in two tables.  It is kept when a new item is added to a
table, when an item is removed from its table and freed, and when tables are freed with the
items in them.
-/

namespace Verse.Lib

variable {ι κ α : Type*}

/-- Table `x` is `table x`, and the item at `a` has the key `key a`. -/
structure Owned (table : ι → Option (List (κ × α))) (key : α → Option κ) : Prop where
  keys : ∀ {x t}, table x = some t → (t.map Prod.fst).Nodup
  stored : ∀ {x t b}, table x = some t → b ∈ t → key b.2 = some b.1
  owner : ∀ {x y t u a}, table x = some t → table y = some u → a ∈ t.map Prod.snd →
    a ∈ u.map Prod.snd → x = y

namespace Owned

variable {table table' : ι → Option (List (κ × α))} {key key' : α → Option κ} {x : ι}
  {t : List (κ × α)} {k : κ} {a : α}

theorem stored_of_mem (h : Owned table key) (ht : table x = some t) (ha : a ∈ t.map Prod.snd) :
    ∃ k, key a = some k ∧ (k, a) ∈ t := by
  obtain ⟨b, hb, rfl⟩ := List.mem_map.mp ha
  exact ⟨b.1, h.stored ht hb, hb⟩

theorem mem_of_key (h : Owned table key) (ht : table x = some t) (ha : a ∈ t.map Prod.snd)
    (hk : key a = some k) : (k, a) ∈ t := by
  obtain ⟨k', hk', hmem⟩ := h.stored_of_mem ht ha
  obtain rfl := Option.some.inj (hk.symm.trans hk')
  exact hmem

/-- No item is listed twice. -/
theorem nodup (h : Owned table key) (ht : table x = some t) : (t.map Prod.snd).Nodup := by
  have hkeys := h.keys ht
  rw [List.Nodup, List.pairwise_map] at hkeys ⊢
  refine hkeys.imp_of_mem fun {b c} hb hc hne heq => hne ?_
  have hkey := h.stored ht hb
  rw [heq, h.stored ht hc] at hkey
  exact (Option.some.inj hkey).symm

theorem empty : Owned (fun _ : ι => (none : Option (List (κ × α)))) fun _ => none where
  keys h := by cases h
  stored h := by cases h
  owner h := by cases h

variable [DecidableEq ι] [DecidableEq α]

omit [DecidableEq α] in
/-- A table that is new and empty. -/
theorem newTable (h : Owned table key) (hx : table x = none) :
    Owned (Function.update table x (some [])) key := by
  have hold : ∀ {y u}, Function.update table x (some []) y = some u →
      (u = [] ∧ y = x) ∨ table y = some u := by
    intro y u hu
    by_cases hyx : y = x
    · subst hyx
      rw [Function.update_self] at hu
      exact Or.inl ⟨(Option.some.inj hu).symm, rfl⟩
    · rw [Function.update_of_ne hyx] at hu
      exact Or.inr hu
  refine ⟨fun hu => ?_, fun hu hb => ?_, fun hu hv ha ha' => ?_⟩
  · rcases hold hu with ⟨rfl, -⟩ | hu
    · exact List.nodup_nil
    · exact h.keys hu
  · rcases hold hu with ⟨rfl, -⟩ | hu
    · cases hb
    · exact h.stored hu hb
  · rcases hold hu with ⟨rfl, -⟩ | hu
    · cases ha
    · rcases hold hv with ⟨rfl, -⟩ | hv
      · cases ha'
      · exact h.owner hu hv ha ha'

/-- A new item at the end of a table. -/
theorem add (h : Owned table key) (ht : table x = some t) (hk : ∀ b ∈ t, b.1 ≠ k)
    (ha : key a = none) :
    Owned (Function.update table x (some (t ++ [(k, a)]))) (Function.update key a (some k)) := by
  have hnot : ∀ {y u}, table y = some u → a ∉ u.map Prod.snd := by
    intro y u hu hmem
    obtain ⟨k', hk', -⟩ := h.stored_of_mem hu hmem
    rw [ha] at hk'
    cases hk'
  have hcases : ∀ {y u}, Function.update table x (some (t ++ [(k, a)])) y = some u →
      (y = x ∧ u = t ++ [(k, a)]) ∨ table y = some u := by
    intro y u hu
    by_cases hyx : y = x
    · subst hyx
      rw [Function.update_self] at hu
      exact Or.inl ⟨rfl, (Option.some.inj hu).symm⟩
    · rw [Function.update_of_ne hyx] at hu
      exact Or.inr hu
  -- an item of a table of the new heap is the new one, or in the old table
  have hitem : ∀ {y u b}, Function.update table x (some (t ++ [(k, a)])) y = some u →
      b ∈ u.map Prod.snd → (b = a ∧ y = x) ∨ ∃ u', table y = some u' ∧ b ∈ u'.map Prod.snd := by
    intro y u b hu hb
    rcases hcases hu with ⟨rfl, rfl⟩ | hu
    · rw [List.map_append, List.mem_append] at hb
      rcases hb with hb | hb
      · exact Or.inr ⟨t, ht, hb⟩
      · exact Or.inl ⟨List.mem_singleton.mp hb, rfl⟩
    · exact Or.inr ⟨u, hu, hb⟩
  refine ⟨fun hu => ?_, fun {y u b} hu hb => ?_, fun hu hv hb hb' => ?_⟩
  · rcases hcases hu with ⟨rfl, rfl⟩ | hu
    · rw [List.map_append, List.nodup_append]
      refine ⟨h.keys ht, List.nodup_singleton _, fun k₁ hk₁ k₂ hk₂ => ?_⟩
      obtain ⟨b, hb, rfl⟩ := List.mem_map.mp hk₁
      rw [List.mem_singleton.mp hk₂]
      exact hk b hb
    · exact h.keys hu
  · have hold : ∀ {z v}, table z = some v → b ∈ v → Function.update key a (some k) b.2 =
        some b.1 := by
      intro z v hv hb
      rw [Function.update_of_ne]
      · exact h.stored hv hb
      · rintro rfl
        exact hnot hv (List.mem_map_of_mem hb)
    rcases hcases hu with ⟨rfl, rfl⟩ | hu
    · rcases List.mem_append.mp hb with hb | hb
      · exact hold ht hb
      · rw [List.mem_singleton.mp hb]
        exact Function.update_self _ _ _
    · exact hold hu hb
  · rcases hitem hu hb with ⟨rfl, rfl⟩ | ⟨u', hu', hbu⟩
    · rcases hitem hv hb' with ⟨-, rfl⟩ | ⟨v', hv', hbv⟩
      · rfl
      · exact absurd hbv (hnot hv')
    · rcases hitem hv hb' with ⟨rfl, rfl⟩ | ⟨v', hv', hbv⟩
      · exact absurd hbu (hnot hu')
      · exact h.owner hu' hv' hbu hbv

omit [DecidableEq ι] [DecidableEq α] in
/-- Tables are freed, with some of their items. -/
theorem free (h : Owned table key) (htable : ∀ x, table' x = table x ∨ table' x = none)
    (hkey : ∀ a, key' a = key a ∨
      (key' a = none ∧ ∃ x t, table x = some t ∧ table' x = none ∧ a ∈ t.map Prod.snd)) :
    Owned table' key' := by
  have hold : ∀ {x t}, table' x = some t → table x = some t := by
    intro x t ht
    rcases htable x with hsame | hnone
    · rw [← hsame, ht]
    · rw [hnone] at ht
      cases ht
  refine ⟨fun ht => h.keys (hold ht), fun {x t b} ht hb => ?_,
    fun ht hu ha ha' => h.owner (hold ht) (hold hu) ha ha'⟩
  rcases hkey b.2 with hsame | ⟨-, y, u, hu, hnone, hmem⟩
  · rw [hsame]
    exact h.stored (hold ht) hb
  · obtain rfl := h.owner (hold ht) hu (List.mem_map_of_mem hb) hmem
    rw [hnone] at ht
    cases ht

variable [DecidableEq κ]

omit [DecidableEq ι] [DecidableEq α] in
/-- After an item is removed by its key, it is not listed any more. -/
theorem mem_remove_iff (h : Owned table key) (ht : table x = some t) (ha : a ∈ t.map Prod.snd)
    (hk : key a = some k) {b : κ × α} :
    b ∈ t.eraseP (fun b => b.1 == k) ↔ b ∈ t ∧ b.2 ≠ a := by
  have hmem := h.mem_of_key ht ha hk
  constructor
  · intro hb
    have hbt : b ∈ t := List.mem_of_mem_eraseP hb
    refine ⟨hbt, fun hba => ?_⟩
    -- a bucket with the address has the key, and only one bucket has it
    have hbk : b = (k, a) := by
      have hkey := h.stored ht hbt
      rw [hba, hk] at hkey
      exact Prod.ext (Option.some.inj hkey).symm hba
    subst hbk
    obtain ⟨c, l₁, l₂, hl₁, hc, hsplit, herase⟩ :=
      List.exists_of_eraseP hbt (p := fun b => b.1 == k) (by simp)
    rw [herase] at hb
    have hkeys := h.keys ht
    rw [hsplit, List.map_append, List.map_cons] at hkeys
    have hck : c.1 = k := by simpa using hc
    rcases List.mem_append.mp hb with hb | hb
    · have hnot := hl₁ (k, a) hb
      simp at hnot
    · have hcons := (List.nodup_append.mp hkeys).2.1
      exact (List.nodup_cons.mp hcons).1 (hck ▸ List.mem_map_of_mem (f := Prod.fst) hb)
  · rintro ⟨hbt, hba⟩
    refine (List.mem_eraseP_of_neg ?_).mpr hbt
    intro hbk
    have hbk : b.1 = k := by simpa using hbk
    refine hba ?_
    have hpair := List.inj_on_of_nodup_map (h.keys ht) hbt hmem (by rw [hbk])
    rw [hpair]

/-- An item is removed from its table and freed. -/
theorem remove (h : Owned table key) (ht : table x = some t) (ha : a ∈ t.map Prod.snd)
    (hk : key a = some k) :
    Owned (Function.update table x (some (t.eraseP fun b => b.1 == k)))
      (Function.update key a none) := by
  have hold : ∀ {y u}, Function.update table x (some (t.eraseP fun b => b.1 == k)) y = some u →
      ∃ v, table y = some v ∧ u.Sublist v ∧ ∀ b ∈ u, b.2 ≠ a := by
    intro y u hu
    by_cases hyx : y = x
    · subst hyx
      rw [Function.update_self] at hu
      obtain rfl := Option.some.inj hu
      exact ⟨t, ht, List.eraseP_sublist, fun b hb => ((h.mem_remove_iff ht ha hk).mp hb).2⟩
    · rw [Function.update_of_ne hyx] at hu
      refine ⟨u, hu, List.Sublist.refl u, fun b hb hba => hyx ?_⟩
      exact h.owner hu ht (hba ▸ List.mem_map_of_mem hb) ha
  refine ⟨fun hu => ?_, fun hu hb => ?_, fun hu hv hb hb' => ?_⟩
  · obtain ⟨v, hv, hsub, -⟩ := hold hu
    exact (h.keys hv).sublist (hsub.map Prod.fst)
  · obtain ⟨v, hv, hsub, hne⟩ := hold hu
    rw [Function.update_of_ne (hne _ hb)]
    exact h.stored hv (hsub.subset hb)
  · obtain ⟨u', hu', hsub, -⟩ := hold hu
    obtain ⟨v', hv', hsub', -⟩ := hold hv
    exact h.owner hu' hv' ((hsub.map Prod.snd).subset hb) ((hsub'.map Prod.snd).subset hb')

end Owned

end Verse.Lib
