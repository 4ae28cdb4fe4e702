import Verse.Lib.Memory

/-!
# Stores

A list of stores, each a place and a byte, is done one after the other, at places
behind a base.  What stands at a place afterwards is what was stored there, or what
stood there before.
-/

namespace Verse.Lib

/-- The stores one after the other, at their places behind `base`. -/
def storeAll (m : Mem) (base : ℕ) : List (ℕ × UInt8) → Mem
  | [] => m
  | s :: rest => storeAll (m.set (base + s.1) s.2) base rest

/-- Bytes that are stored one behind the other. -/
def bytesAt : ℕ → List UInt8 → List (ℕ × UInt8)
  | _, [] => []
  | off, b :: rest => (off, b) :: bytesAt (off + 1) rest

theorem mem_bytesAt {off : ℕ} {bytes : List UInt8} {s : ℕ × UInt8} :
    s ∈ bytesAt off bytes ↔ ∃ i, bytes[i]? = some s.2 ∧ s.1 = off + i := by
  induction bytes generalizing off with
  | nil => simp [bytesAt]
  | cons b rest ih =>
      rw [bytesAt, List.mem_cons, ih]
      constructor
      · rintro (rfl | ⟨i, hi, hs⟩)
        · exact ⟨0, rfl, rfl⟩
        · exact ⟨i + 1, by simpa using hi, by omega⟩
      · rintro ⟨i, hi, hs⟩
        cases i with
        | zero => exact .inl (Prod.ext hs (Option.some.inj hi).symm)
        | succ i => exact .inr ⟨i, by simpa using hi, by omega⟩

variable {base a : ℕ} {stores : List (ℕ × UInt8)}

theorem storeAll_append (m : Mem) (base : ℕ) (xs ys : List (ℕ × UInt8)) :
    storeAll m base (xs ++ ys) = storeAll (storeAll m base xs) base ys := by
  induction xs generalizing m with
  | nil => rfl
  | cons s rest ih => exact ih _

/-- The base is added to each place. -/
theorem storeAll_base (m : Mem) (base : ℕ) (stores : List (ℕ × UInt8)) :
    storeAll m base stores = storeAll m 0 (stores.map fun s => (base + s.1, s.2)) := by
  induction stores generalizing m with
  | nil => rfl
  | cons s rest ih => rw [storeAll, ih, List.map_cons, storeAll, Nat.zero_add]

/-- A place where nothing is stored keeps its byte. -/
theorem storeAll_of_ne (m : Mem) (h : ∀ s ∈ stores, base + s.1 ≠ a) :
    storeAll m base stores a = m a := by
  induction stores generalizing m with
  | nil => rfl
  | cons s rest ih =>
      rw [storeAll, ih _ fun t ht => h t (by simp [ht])]
      exact set_of_ne m (h s (by simp)).symm s.2

/-- A place where only one byte is stored, or where it stood before. -/
theorem storeAll_eq (m : Mem) {b : UInt8} (hall : ∀ s ∈ stores, base + s.1 = a → s.2 = b)
    (h : m a = b ∨ ∃ s ∈ stores, base + s.1 = a) : storeAll m base stores a = b := by
  induction stores generalizing m with
  | nil =>
      obtain hm | ⟨s, hs, -⟩ := h
      · exact hm
      · cases hs
  | cons s rest ih =>
      rw [storeAll]
      refine ih _ (fun t ht => hall t (by simp [ht])) ?_
      by_cases hs : base + s.1 = a
      · rw [hs, set_self]
        exact .inl (hall s (by simp) hs)
      · rw [set_of_ne m (Ne.symm hs)]
        obtain hm | ⟨t, ht, hta⟩ := h
        · exact .inl hm
        · rcases List.mem_cons.mp ht with rfl | ht
          · exact absurd hta hs
          · exact .inr ⟨t, ht, hta⟩

/-- What stood at a place does not matter when something is stored there. -/
theorem storeAll_forgets (m : Mem) (b : UInt8) (h : ∃ s ∈ stores, base + s.1 = a) :
    storeAll (m.set a b) base stores a = storeAll m base stores a := by
  induction stores generalizing m with
  | nil =>
      obtain ⟨s, hs, -⟩ := h
      cases hs
  | cons s rest ih =>
      by_cases hs : base + s.1 = a
      · have hsame : (m.set a b).set a s.2 = m.set a s.2 := by
          funext i
          by_cases hi : i = a
          · rw [hi, set_self, set_self]
          · rw [set_of_ne _ hi, set_of_ne _ hi, set_of_ne _ hi]
        rw [storeAll, storeAll, hs, hsame]
      · have hcomm : (m.set a b).set (base + s.1) s.2 = (m.set (base + s.1) s.2).set a b := by
          funext i
          by_cases hi : i = a
          · rw [hi, set_self, set_of_ne _ (Ne.symm hs), set_self]
          · by_cases hi' : i = base + s.1
            · rw [hi', set_self, set_of_ne _ hs, set_self]
            · rw [set_of_ne _ hi', set_of_ne _ hi, set_of_ne _ hi, set_of_ne _ hi']
        rw [storeAll, storeAll, hcomm]
        obtain ⟨t, ht, hta⟩ := h
        rcases List.mem_cons.mp ht with rfl | ht
        · exact absurd hta hs
        · exact ih _ ⟨t, ht, hta⟩

/-- **Stores in bounds.**  Whatever stood there, nothing changes from `bound` on exactly if
nothing is stored there. -/
theorem storeAll_keeps_iff {bound : ℕ} :
    (∀ m a, bound ≤ a → storeAll m base stores a = m a) ↔ ∀ s ∈ stores, base + s.1 < bound := by
  constructor
  · intro hkeeps s hs
    by_contra hout
    have hstored : ∃ t ∈ stores, base + t.1 = base + s.1 := ⟨s, hs, rfl⟩
    have hbyte : ∀ b, b = storeAll (fun _ => 0) base stores (base + s.1) := by
      intro b
      have hkept := hkeeps (Mem.set (fun _ => 0) (base + s.1) b) (base + s.1) (by omega)
      rw [storeAll_forgets _ b hstored, set_self] at hkept
      exact hkept.symm
    exact absurd ((hbyte 0).trans (hbyte 1).symm) (by decide)
  · intro hin m a ha
    refine storeAll_of_ne m fun s hs => ?_
    have := hin s hs
    omega

end Verse.Lib
