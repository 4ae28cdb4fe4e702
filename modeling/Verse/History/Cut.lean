import Verse.History.Compression
import Verse.Lib.Run

/-!
# The cut at an ANK id

`v_ack_nak_history_remove_cmds` is meant to forget every id up to the ANK id.  It
finds the first entry whose id is not below the ANK id.  When that entry has the
ANK id itself, the ids behind it stay.  When the ANK id stands between two
entries, the entry before it is moved up to the ANK id, not behind it, and the
ANK id stays in the history.
-/

namespace Verse

open Lib

/-! ## The histories that are reached -/

/-- What changes a history of ACK and NAK commands. -/
inductive HistoryAction where
  | addCmd (cmd : AckNakCmd)
  | removeCmds (ankId : ℕ)
  deriving Repr

/-- The payload ids and the ANK ids are `uint32`. -/
def HistoryAction.IsUint32 : HistoryAction → Prop
  | .addCmd cmd => cmd.2 < 2 ^ 32
  | .removeCmds ankId => ankId < 2 ^ 32

/-- One call of a function of the history. -/
def historyStep (history : AckNakHistory) : HistoryAction → Option AckNakHistory
  | .addCmd cmd => some (vAckNakHistoryAddCmd history cmd)
  | .removeCmds ankId => some (vAckNakHistoryRemoveCmds history ankId)

/-- The ids of an array are `uint32`. -/
def Uint32Ids (cmds : List AckNakCmd) : Prop := ∀ cmd ∈ cmds, cmd.2 < 2 ^ 32

variable {cmds before after : List AckNakCmd} {cmd cut next : AckNakCmd} {ankId stale : ℕ}

theorem mem_of_mem_addCmd (h : cmd ∈ addCmd cmds next) : cmd ∈ cmds ∨ cmd = next := by
  -- the command is appended, and the last one may have been dropped before
  have hend : ∀ kept, kept ⊆ cmds → cmd ∈ kept ++ [next] → cmd ∈ cmds ∨ cmd = next := by
    intro kept hkept hmem
    rcases List.mem_append.mp hmem with hmem | hmem
    · exact Or.inl (hkept hmem)
    · exact Or.inr (List.mem_singleton.mp hmem)
  have happ := hend cmds (List.Subset.refl cmds)
  have hdrop := hend cmds.dropLast (List.dropLast_subset cmds)
  unfold addCmd at h
  split at h
  · exact Or.inr (List.mem_singleton.mp h)
  · split at h
    · split at h
      · exact happ h
      · exact happ h
      · exact hdrop h
    · exact happ h
    · split at h
      · exact hdrop h
      · exact happ h
    · exact Or.inl h

/-! ## What the cut does -/

/-- An array is cut before the first entry whose id is not below the ANK id. -/
structure CutAt (cmds : List AckNakCmd) (ankId : ℕ) (before : List AckNakCmd) (cut : AckNakCmd)
    (after : List AckNakCmd) : Prop where
  split_eq : cmds = before ++ cut :: after
  below : ∀ cmd ∈ before, cmd.2 < ankId
  not_below : ankId ≤ cut.2

theorem CutAt.takeWhile_eq (h : CutAt cmds ankId before cut after) :
    (cmds.takeWhile fun c => decide (c.2 < ankId)) = before := by
  have hcut : ¬ cut.2 < ankId := by
    have := h.not_below
    omega
  rw [h.split_eq, List.takeWhile_append_of_pos (by simpa using h.below),
    List.takeWhile_cons_of_neg (by simpa using hcut), List.append_nil]

theorem CutAt.dropWhile_eq (h : CutAt cmds ankId before cut after) :
    (cmds.dropWhile fun c => decide (c.2 < ankId)) = cut :: after := by
  have hcut : ¬ cut.2 < ankId := by
    have := h.not_below
    omega
  rw [h.split_eq, List.dropWhile_append_of_pos (by simpa using h.below),
    List.dropWhile_cons_of_neg (by simpa using hcut)]

/-- There is one place where an array is cut. -/
theorem CutAt.unique {before' after' : List AckNakCmd} {cut' : AckNakCmd}
    (h : CutAt cmds ankId before cut after) (h' : CutAt cmds ankId before' cut' after') :
    before = before' ∧ cut = cut' ∧ after = after' := by
  have hfront := h.takeWhile_eq.symm.trans h'.takeWhile_eq
  have hback := h.dropWhile_eq.symm.trans h'.dropWhile_eq
  exact ⟨hfront, List.cons.inj hback⟩

/-- All entries are below the ANK id, or there is a place where the array is cut. -/
theorem below_or_cutAt (cmds : List AckNakCmd) (ankId : ℕ) :
    (∀ cmd ∈ cmds, cmd.2 < ankId) ∨ ∃ before cut after, CutAt cmds ankId before cut after := by
  induction cmds with
  | nil => simp
  | cons first rest ih =>
      by_cases hfirst : first.2 < ankId
      · rcases ih with hbelow | ⟨before, cut, after, h⟩
        · exact Or.inl (List.forall_mem_cons.mpr ⟨hfirst, hbelow⟩)
        · refine Or.inr ⟨first :: before, cut, after, ?_, ?_, h.not_below⟩
          · rw [h.split_eq, List.cons_append]
          · exact List.forall_mem_cons.mpr ⟨hfirst, h.below⟩
      · exact Or.inr ⟨[], first, rest, rfl, by simp, Nat.not_lt.mp hfirst⟩

theorem CutAt.getLast?_eq (h : CutAt cmds ankId before cut after) :
    cmds.getLast? = (cut :: after).getLast? := by
  rw [h.split_eq, List.getLast?_append_cons]

/-- The function gives up: the last entry is below the ANK id. -/
theorem removeCmds_of_last_lt {last : AckNakCmd} (hlast : cmds.getLast? = some last)
    (hlt : last.2 < ankId) : removeCmds cmds ankId = (cmds, false) := by
  simp only [removeCmds, hlast, if_pos hlt]

section CutAt

variable {last : AckNakCmd}

/-- The cut falls on the last entry. -/
theorem CutAt.removeCmds_last (h : CutAt cmds ankId before cut []) (heq : cut.2 = ankId) :
    (removeCmds cmds ankId).1 = [] := by
  have hlast : cmds.getLast? = some cut := h.getLast?_eq
  simp [removeCmds, hlast, h.dropWhile_eq, heq]

/-- The cut falls on an entry, and the next one has the next id. -/
theorem CutAt.removeCmds_next (h : CutAt cmds ankId before cut (next :: after))
    (hlast : cmds.getLast? = some last) (hle : ankId ≤ last.2) (heq : cut.2 = ankId)
    (hnext : next.2 = (ankId + 1) % 2 ^ 32) : (removeCmds cmds ankId).1 = next :: after := by
  simp only [removeCmds, hlast, if_neg (Nat.not_lt.mpr hle), h.dropWhile_eq, if_pos heq,
    if_pos hnext]

/-- The cut falls on an entry, which moves behind the ANK id. -/
theorem CutAt.removeCmds_move (h : CutAt cmds ankId before cut (next :: after))
    (hlast : cmds.getLast? = some last) (hle : ankId ≤ last.2) (heq : cut.2 = ankId)
    (hnext : next.2 ≠ (ankId + 1) % 2 ^ 32) :
    (removeCmds cmds ankId).1 = (cut.1, (ankId + 1) % 2 ^ 32) :: next :: after := by
  simp only [removeCmds, hlast, if_neg (Nat.not_lt.mpr hle), h.dropWhile_eq, if_pos heq,
    if_neg hnext]

/-- The cut falls between two entries: the first of them moves to the ANK id. -/
theorem CutAt.removeCmds_between {prev : AckNakCmd} (h : CutAt cmds ankId before cut after)
    (hlast : cmds.getLast? = some last) (hle : ankId ≤ last.2) (hne : cut.2 ≠ ankId)
    (hprev : before.getLast? = some prev) :
    (removeCmds cmds ankId).1 = (prev.1, ankId) :: cut :: after := by
  simp only [removeCmds, hlast, if_neg (Nat.not_lt.mpr hle), h.dropWhile_eq, h.takeWhile_eq,
    if_neg hne, hprev]

/-- The cut falls before the first entry. -/
theorem CutAt.removeCmds_front (h : CutAt cmds ankId [] cut after)
    (hlast : cmds.getLast? = some last) (hle : ankId ≤ last.2) (hne : cut.2 ≠ ankId) :
    (removeCmds cmds ankId).1 = cmds := by
  simp only [removeCmds, hlast, if_neg (Nat.not_lt.mpr hle), h.dropWhile_eq, h.takeWhile_eq,
    if_neg hne, List.getLast?_nil]

end CutAt

theorem uint32Ids_removeCmds (h : Uint32Ids cmds) (hank : ankId < 2 ^ 32) :
    Uint32Ids (removeCmds cmds ankId).1 := by
  have hmod : (ankId + 1) % 2 ^ 32 < 2 ^ 32 := Nat.mod_lt _ (by decide)
  cases hlast : cmds.getLast? with
  | none => simpa [removeCmds, hlast] using h
  | some last =>
      by_cases hlt : last.2 < ankId
      · rwa [removeCmds_of_last_lt hlast hlt]
      · have hle := Nat.not_lt.mp hlt
        rcases below_or_cutAt cmds ankId with hbelow | ⟨before, cut, after, hcut⟩
        · exact absurd (hbelow last (List.mem_of_getLast? hlast)) hlt
        · have hbehind : Uint32Ids (cut :: after) := by
            intro cmd hcmd
            exact h cmd (by rw [hcut.split_eq]; exact List.mem_append_right _ hcmd)
          by_cases heq : cut.2 = ankId
          · cases after with
            | nil => simp [hcut.removeCmds_last heq, Uint32Ids]
            | cons next after =>
                have htail : Uint32Ids (next :: after) := fun cmd hcmd =>
                  hbehind cmd (List.mem_cons_of_mem _ hcmd)
                by_cases hnext : next.2 = (ankId + 1) % 2 ^ 32
                · rwa [hcut.removeCmds_next hlast hle heq hnext]
                · rw [hcut.removeCmds_move hlast hle heq hnext]
                  exact List.forall_mem_cons.mpr ⟨hmod, htail⟩
          · cases hprev : before.getLast? with
            | none =>
                obtain rfl := List.getLast?_eq_none_iff.mp hprev
                rwa [hcut.removeCmds_front hlast hle heq]
            | some prev =>
                rw [hcut.removeCmds_between hlast hle heq hprev]
                exact List.forall_mem_cons.mpr ⟨hank, hbehind⟩

/-- The ANK id stands behind the last entry or before the first one. -/
def CutsNothing (cmds : List AckNakCmd) (ankId : ℕ) : Prop :=
  ∀ first ∈ cmds.head?, ∀ last ∈ cmds.getLast?, last.2 < ankId ∨ ankId < first.2

theorem CutAt.head_lt (h : CutAt cmds ankId before cut after) {first : AckNakCmd}
    (hfirst : cmds.head? = some first) (hbefore : before ≠ []) : first.2 < ankId := by
  obtain ⟨head, rest, rfl⟩ := List.exists_cons_of_ne_nil hbefore
  rw [h.split_eq, List.cons_append, List.head?_cons, Option.some.injEq] at hfirst
  exact hfirst ▸ h.below head List.mem_cons_self

/-- When the cut falls on an entry, this entry goes, or moves behind the ANK id. -/
theorem CutAt.removeCmds_ne {last : AckNakCmd} (h : CutAt cmds ankId before cut after)
    (hlast : cmds.getLast? = some last) (hle : ankId ≤ last.2) (heq : cut.2 = ankId) :
    (removeCmds cmds ankId).1 ≠ cmds := by
  intro hself
  have hlength : cmds.length = before.length + (after.length + 1) := by
    rw [h.split_eq, List.length_append, List.length_cons]
  cases after with
  | nil =>
      rw [h.removeCmds_last heq] at hself
      rw [← hself] at hlast
      cases hlast
  | cons next after =>
      by_cases hnext : next.2 = (ankId + 1) % 2 ^ 32
      · rw [h.removeCmds_next hlast hle heq hnext] at hself
        have hlen := congrArg List.length hself
        simp only [List.length_cons] at hlen hlength
        omega
      · rw [h.removeCmds_move hlast hle heq hnext] at hself
        have hlen := congrArg List.length hself
        simp only [List.length_cons] at hlen hlength
        have hnil : before = [] := List.length_eq_zero_iff.mp (by omega)
        have hsplit := hself.trans h.split_eq
        rw [hnil, List.nil_append, List.cons.injEq] at hsplit
        -- no id is the one behind it, also where the ids wrap
        have hid := congrArg Prod.snd hsplit.1
        simp only [heq] at hid
        omega

/-- **When the array stays as it is.** -/
theorem removeCmds_eq_self_iff (cmds : List AckNakCmd) (ankId : ℕ) :
    (removeCmds cmds ankId).1 = cmds ↔ CutsNothing cmds ankId := by
  cases hlast : cmds.getLast? with
  | none =>
      obtain rfl := List.getLast?_eq_none_iff.mp hlast
      simp [removeCmds, CutsNothing]
  | some last =>
      by_cases hlt : last.2 < ankId
      · rw [removeCmds_of_last_lt hlast hlt]
        refine iff_of_true rfl fun first _ last' hlast' => Or.inl ?_
        rw [hlast, Option.mem_some_iff] at hlast'
        exact hlast' ▸ hlt
      · have hle := Nat.not_lt.mp hlt
        rcases below_or_cutAt cmds ankId with hbelow | ⟨before, cut, after, hcut⟩
        · exact absurd (hbelow last (List.mem_of_getLast? hlast)) hlt
        · obtain ⟨first, hfirst⟩ : ∃ first, cmds.head? = some first := by
            cases cmds with
            | nil => cases hlast
            | cons first rest => exact ⟨first, rfl⟩
          have hcuts : CutsNothing cmds ankId ↔ ankId < first.2 := by
            constructor
            · intro h
              exact (h first hfirst last hlast).resolve_left hlt
            · intro h first' hfirst' _ _
              rw [hfirst, Option.mem_some_iff] at hfirst'
              exact Or.inr (hfirst' ▸ h)
          rw [hcuts]
          by_cases heq : cut.2 = ankId
          · have hnot : ¬ ankId < first.2 := by
              by_cases hbefore : before = []
              · have := hcut.split_eq
                rw [hbefore, List.nil_append] at this
                rw [this, List.head?_cons, Option.some.injEq] at hfirst
                rw [← hfirst, heq]
                exact Nat.lt_irrefl _
              · have := hcut.head_lt hfirst hbefore
                omega
            exact iff_of_false (hcut.removeCmds_ne hlast hle heq) hnot
          · cases hprev : before.getLast? with
            | none =>
                obtain rfl := List.getLast?_eq_none_iff.mp hprev
                refine iff_of_true (hcut.removeCmds_front hlast hle heq) ?_
                rw [hcut.split_eq, List.nil_append, List.head?_cons, Option.some.injEq] at hfirst
                rw [← hfirst]
                exact Nat.lt_of_le_of_ne hcut.not_below (Ne.symm heq)
            | some prev =>
                have hbefore : before ≠ [] := by
                  rintro rfl
                  cases hprev
                have hfirstlt := hcut.head_lt hfirst hbefore
                refine iff_of_false (fun hself => ?_) (Nat.lt_asymm hfirstlt)
                rw [hcut.removeCmds_between hlast hle heq hprev] at hself
                rw [← hself, List.head?_cons, Option.some.injEq] at hfirst
                rw [← hfirst] at hfirstlt
                exact Nat.lt_irrefl _ hfirstlt

theorem vAckNakHistoryRemoveCmds_eq_self_iff (history : AckNakHistory) (ankId : ℕ) :
    vAckNakHistoryRemoveCmds history ankId = history ↔ CutsNothing history.cmds ankId := by
  rw [← removeCmds_eq_self_iff]
  constructor
  · intro h
    exact congrArg AckNakHistory.cmds h
  · intro h
    cases history
    simp only [vAckNakHistoryRemoveCmds, AckNakHistory.mk.injEq, and_true]
    exact h

/-- The ids of all reached histories are `uint32`. -/
theorem uint32Ids_of_run {actions : List HistoryAction} {history : AckNakHistory}
    (hadm : Admissible historyStep (fun _ action => action.IsUint32) vAckNakHistoryInit actions)
    (hrun : run historyStep vAckNakHistoryInit actions = some history) :
    Uint32Ids history.cmds := by
  apply run_invariant ?_ ?_ hadm hrun
  · intro history action history' hinv haction hstep
    cases action with
    | addCmd cmd =>
        obtain rfl := Option.some.inj hstep
        intro other hother
        rcases mem_of_mem_addCmd hother with hmem | rfl
        · exact hinv other hmem
        · exact haction
    | removeCmds ankId =>
        obtain rfl := Option.some.inj hstep
        exact uint32Ids_removeCmds hinv haction
  · simp [Uint32Ids, vAckNakHistoryInit]

/-! ## Reading the array after the cut -/

/-- The shape of a compressed array: ids grow, the last entry is an ACK, and no two
NAKs are adjacent. -/
structure Shaped (cmds : List AckNakCmd) : Prop where
  increasing : (cmds.map Prod.snd).Pairwise (· < ·)
  last_ack : ∀ cmd ∈ cmds.getLast?, cmd.1 = .ack
  no_naks : ∀ before after m n, cmds ≠ before ++ (.nak, m) :: (.nak, n) :: after

theorem Shaped.nil : Shaped [] := ⟨by simp, by simp, by simp⟩

theorem Shaped.tail (h : Shaped (cut :: next :: after)) : Shaped (next :: after) where
  increasing := (List.pairwise_cons.mp h.increasing).2
  last_ack := by
    intro cmd hcmd
    exact h.last_ack cmd (by simpa using hcmd)
  no_naks := by
    intro before rest m n heq
    exact h.no_naks (cut :: before) rest m n (by rw [heq, List.cons_append])

theorem Shaped.lt (h : Shaped (cut :: next :: after)) : cut.2 < next.2 :=
  (List.pairwise_cons.mp h.increasing).1 next.2 (by simp)

/-- An ACK may stand before an array of this shape. -/
theorem Shaped.cons (h : Shaped (next :: after)) (hlt : cut.2 < next.2)
    (hkind : cut.1 = .ack) : Shaped (cut :: next :: after) where
  increasing := by
    refine List.pairwise_cons.mpr ⟨?_, h.increasing⟩
    intro id hid
    rcases List.mem_cons.mp hid with rfl | hid
    · exact hlt
    · exact hlt.trans ((List.pairwise_cons.mp h.increasing).1 id hid)
  last_ack := by
    intro cmd hcmd
    exact h.last_ack cmd (by simpa using hcmd)
  no_naks := by
    intro before rest m n heq
    cases before with
    | nil =>
        have hcut : cut = (.nak, m) := (List.cons.inj heq).1
        simp [hcut] at hkind
    | cons first before => exact h.no_naks before rest m n (List.cons.inj heq).2

/-- The first entry may start later. -/
theorem Shaped.move (h : Shaped (cut :: next :: after)) {id : ℕ} (hlt : id < next.2) :
    Shaped ((cut.1, id) :: next :: after) where
  increasing := by
    refine List.pairwise_cons.mpr ⟨?_, h.tail.increasing⟩
    intro other hother
    rcases List.mem_cons.mp hother with rfl | hother
    · exact hlt
    · exact hlt.trans ((List.pairwise_cons.mp h.tail.increasing).1 other hother)
  last_ack := by
    intro cmd hcmd
    exact h.tail.last_ack cmd (by simpa using hcmd)
  no_naks := by
    intro before rest m n heq
    cases before with
    | nil =>
        obtain ⟨hcut, hrest⟩ := List.cons.inj heq
        have hkind : cut.1 = .nak := congrArg Prod.fst hcut
        exact h.no_naks [] rest cut.2 n (by rw [hrest, ← hkind]; rfl)
    | cons first before => exact h.tail.no_naks before rest m n (List.cons.inj heq).2

theorem ackNakIds_cons_cons (cmd next : AckNakCmd) (rest : List AckNakCmd) (stale : ℕ) :
    ackNakIds (cmd :: next :: rest) stale =
      span cmd.1 cmd.2 next.2 ++ ackNakIds (next :: rest) stale := by
  simp [ackNakIds]

theorem ackNakIds_append (before : List AckNakCmd) (cut : AckNakCmd) (after : List AckNakCmd)
    (stale : ℕ) :
    ackNakIds (before ++ cut :: after) stale =
      spans before cut.2 ++ ackNakIds (cut :: after) stale := by
  induction before with
  | nil => rfl
  | cons first rest ih =>
      cases rest with
      | nil => simp [ackNakIds_cons_cons]
      | cons second rest =>
          simp only [List.cons_append] at ih ⊢
          rw [ackNakIds_cons_cons, ih, spans_cons_cons, List.append_assoc]

/-- What stands before the cut is below the ANK id. -/
theorem lt_of_mem_spans {m : AckNakCmd} (hbelow : ∀ cmd ∈ before, cmd.2 < ankId)
    (hm : m ∈ spans before ankId) : m.2 < ankId := by
  induction before with
  | nil => simp at hm
  | cons first rest ih =>
      cases rest with
      | nil => exact (mem_span.mp hm).2.2
      | cons second rest =>
          rw [spans_cons_cons, List.mem_append] at hm
          rcases hm with hm | hm
          · exact (mem_span.mp hm).2.2.trans (hbelow second (by simp))
          · exact ih (fun cmd hcmd => hbelow cmd (List.mem_cons_of_mem _ hcmd)) hm

/-- Nothing in the reading of an array with growing ids is below its first entry. -/
theorem le_of_mem_ackNakIds {m : AckNakCmd}
    (hincreasing : ((cut :: after).map Prod.snd).Pairwise (· < ·))
    (hm : m ∈ ackNakIds (cut :: after) stale) : cut.2 ≤ m.2 := by
  induction after generalizing cut with
  | nil =>
      obtain ⟨kind, id⟩ := cut
      cases kind with
      | ack => simp [List.mem_singleton.mp hm]
      | nak => exact (mem_span.mp hm).2.1
  | cons next rest ih =>
      rw [ackNakIds_cons_cons, List.mem_append] at hm
      rcases hm with hm | hm
      · exact (mem_span.mp hm).2.1
      · have hpair := List.pairwise_cons.mp hincreasing
        have hlt : cut.2 < next.2 := hpair.1 next.2 (by simp)
        exact hlt.le.trans (ih hpair.2 hm)

/-- The last entry is read when it is an ACK. -/
theorem last_mem_ackNakIds {id : ℕ} (h : cmds.getLast? = some (.ack, id)) (stale : ℕ) :
    (.ack, id) ∈ ackNakIds cmds stale := by
  have hsplit := List.dropLast_append_getLast? (AckNakId.ack, id) h
  rw [← hsplit, ackNakIds_append]
  exact List.mem_append_right _ (List.mem_singleton_self _)

/-! ## When the cut keeps exactly the ids behind the ANK id -/

/-- The cut falls on an entry, and what begins there has the shape of a compressed array. -/
def CutsAtEntry (cmds : List AckNakCmd) (ankId : ℕ) : Prop :=
  ∃ before cut after, CutAt cmds ankId before cut after ∧ cut.2 = ankId ∧ Shaped (cut :: after)

/-- An acknowledged ANK id that is not read behind the cut is that of an ACK at the cut. -/
theorem CutAt.kind_eq (h : CutAt cmds ankId before cut after) (heq : cut.2 = ankId)
    (hcov : (.ack, ankId) ∈ ackNakIds cmds stale)
    (hbehind : ∀ m ∈ ackNakIds after stale, ankId < m.2) : cut.1 = .ack := by
  rw [h.split_eq, ackNakIds_append, heq, List.mem_append] at hcov
  have hcut : (.ack, ankId) ∈ ackNakIds (cut :: after) stale := by
    refine hcov.resolve_left fun hfront => ?_
    exact Nat.lt_irrefl _ (lt_of_mem_spans h.below hfront)
  obtain ⟨kind, id⟩ := cut
  cases after with
  | nil =>
      cases kind with
      | ack => rfl
      | nak => exact absurd (mem_span.mp hcut).1 (by simp)
  | cons next after =>
      rw [ackNakIds_cons_cons, List.mem_append] at hcut
      rcases hcut with hcut | hcut
      · exact (mem_span.mp hcut).1.symm
      · exact absurd (hbehind _ hcut) (Nat.lt_irrefl _)

/-- The reading restricted to the ids behind an entry at which the array is cut. -/
theorem CutAt.filter_ackNakIds (h : CutAt cmds ankId before cut (next :: after))
    (heq : cut.2 = ankId) (hshaped : Shaped (cut :: next :: after)) :
    (ackNakIds cmds stale).filter (fun m => ankId < m.2) =
      span cut.1 (ankId + 1) next.2 ++ ackNakIds (next :: after) stale := by
  have hlt : ankId < next.2 := heq ▸ hshaped.lt
  have hfront : (spans before ankId).filter (fun m => ankId < m.2) = [] := by
    rw [List.filter_eq_nil_iff]
    intro m hm
    have := lt_of_mem_spans h.below hm
    simp only [decide_eq_true_eq]
    omega
  have hbehind : (ackNakIds (next :: after) stale).filter (fun m => ankId < m.2) =
      ackNakIds (next :: after) stale := by
    rw [List.filter_eq_self]
    intro m hm
    have := le_of_mem_ackNakIds hshaped.tail.increasing hm
    simp only [decide_eq_true_eq]
    omega
  have hcut : (span cut.1 ankId next.2).filter (fun m => ankId < m.2) =
      span cut.1 (ankId + 1) next.2 := by
    -- the ANK id itself goes, what is behind it stays
    rw [← span_append_span cut.1 (Nat.le_succ ankId) hlt, span_succ_self, List.singleton_append,
      List.filter_cons_of_neg (by simp), List.filter_eq_self]
    intro m hm
    have := (mem_span.mp hm).2.1
    simp only [decide_eq_true_eq]
    omega
  calc (ackNakIds cmds stale).filter (fun m => ankId < m.2)
      = (spans before ankId ++
          (span cut.1 ankId next.2 ++ ackNakIds (next :: after) stale)).filter
            (fun m => ankId < m.2) := by
        rw [h.split_eq, ackNakIds_append, ackNakIds_cons_cons, heq]
    _ = span cut.1 (ankId + 1) next.2 ++ ackNakIds (next :: after) stale := by
        rw [List.filter_append, List.filter_append, hfront, hcut, hbehind, List.nil_append]

/-- The array that is left reads as the ids behind the ANK id. -/
def Restricts (cmds : List AckNakCmd) (ankId stale : ℕ) : Prop :=
  ackNakIds (removeCmds cmds ankId).1 stale =
    (ackNakIds cmds stale).filter fun m => ankId < m.2

theorem Restricts.lt {m : AckNakCmd} (h : Restricts cmds ankId stale)
    (hm : m ∈ ackNakIds (removeCmds cmds ankId).1 stale) : ankId < m.2 := by
  rw [h] at hm
  simpa using (List.mem_filter.mp hm).2

/-- An array that is left as it was still has the ANK id. -/
theorem Restricts.changed (h : Restricts cmds ankId stale)
    (hcov : (.ack, ankId) ∈ ackNakIds cmds stale) : (removeCmds cmds ankId).1 ≠ cmds := by
  intro hsame
  exact Nat.lt_irrefl _ (h.lt (m := (.ack, ankId)) (by rwa [hsame]))

/-- When the cut falls on an entry, the entries behind it have the shape. -/
theorem CutAt.removeCmds_shaped {last : AckNakCmd}
    (hcut : CutAt cmds ankId before cut (next :: after)) (h : Restricts cmds ankId stale)
    (hshaped : Shaped (removeCmds cmds ankId).1) (hids : Uint32Ids cmds)
    (hlast : cmds.getLast? = some last) (hle : ankId ≤ last.2) (heq : cut.2 = ankId) :
    Shaped (next :: after) ∧ ankId < next.2 := by
  have hbehind : (next :: after).getLast? = some last := by
    rw [← hlast, hcut.getLast?_eq, List.getLast?_cons_cons]
  have hlast_lt : last.2 < 2 ^ 32 := hids last (List.mem_of_getLast? hlast)
  -- the last entry is an ACK that is read, so the ANK id is below it
  have hwrap : (removeCmds cmds ankId).1.getLast? = some last → (ankId + 1) % 2 ^ 32 = ankId + 1 := by
    intro hget
    have hkind : last.1 = .ack := hshaped.last_ack last hget
    have hmem : last ∈ ackNakIds (removeCmds cmds ankId).1 stale := by
      obtain ⟨kind, id⟩ := last
      obtain rfl : kind = .ack := hkind
      exact last_mem_ackNakIds hget stale
    have hlt := h.lt hmem
    exact Nat.mod_eq_of_lt (by omega)
  by_cases hnext : next.2 = (ankId + 1) % 2 ^ 32
  · have hremove := hcut.removeCmds_next hlast hle heq hnext
    rw [hremove] at hshaped hwrap
    have := hwrap hbehind
    exact ⟨hshaped, by omega⟩
  · have hremove := hcut.removeCmds_move hlast hle heq hnext
    rw [hremove] at hshaped hwrap
    have := hwrap (by rw [List.getLast?_cons_cons, hbehind])
    have hlt := hshaped.lt
    exact ⟨hshaped.tail, by simp only at hlt; omega⟩

theorem Restricts.cutsAtEntry (h : Restricts cmds ankId stale)
    (hshaped : Shaped (removeCmds cmds ankId).1) (hids : Uint32Ids cmds)
    (hcov : (.ack, ankId) ∈ ackNakIds cmds stale) : CutsAtEntry cmds ankId := by
  have hchanged := h.changed hcov
  obtain ⟨last, hlast⟩ : ∃ last, cmds.getLast? = some last := by
    cases hlast : cmds.getLast? with
    | none => simp [List.getLast?_eq_none_iff.mp hlast, ackNakIds] at hcov
    | some last => exact ⟨last, rfl⟩
  have hle : ankId ≤ last.2 := by
    by_contra hlt
    exact hchanged (by rw [removeCmds_of_last_lt hlast (Nat.not_le.mp hlt)])
  rcases below_or_cutAt cmds ankId with hbelow | ⟨before, cut, after, hcut⟩
  · exact absurd (hbelow last (List.mem_of_getLast? hlast)) (Nat.not_lt.mpr hle)
  by_cases heq : cut.2 = ankId
  · refine ⟨before, cut, after, hcut, heq, ?_⟩
    cases after with
    | nil =>
        have hkind := hcut.kind_eq heq hcov (by simp [ackNakIds])
        refine ⟨by simp, ?_, ?_⟩
        · intro cmd hcmd
          obtain rfl : cut = cmd := by simpa using hcmd
          exact hkind
        · intro before rest m n hnaks
          have := congrArg List.length hnaks
          simp at this
          omega
    | cons next after =>
        obtain ⟨hafter, hlt⟩ : Shaped (next :: after) ∧ ankId < next.2 :=
          hcut.removeCmds_shaped h hshaped hids hlast hle heq
        refine hafter.cons (heq ▸ hlt) (hcut.kind_eq heq hcov fun m hm => ?_)
        exact hlt.trans_le (le_of_mem_ackNakIds hafter.increasing hm)
  · cases hprev : before.getLast? with
    | none =>
        obtain rfl := List.getLast?_eq_none_iff.mp hprev
        exact absurd (hcut.removeCmds_front hlast hle heq) hchanged
    | some prev =>
        -- the entry that is moved to the ANK id is read
        have hlt : ankId < cut.2 := lt_of_le_of_ne hcut.not_below (Ne.symm heq)
        have hmem : (prev.1, ankId) ∈ ackNakIds (removeCmds cmds ankId).1 stale := by
          rw [hcut.removeCmds_between hlast hle heq hprev, ackNakIds_cons_cons]
          exact List.mem_append_left _ (mem_span.mpr ⟨rfl, Nat.le_refl _, hlt⟩)
        exact absurd (h.lt hmem) (Nat.lt_irrefl _)

theorem CutsAtEntry.restricts (h : CutsAtEntry cmds ankId) (hids : Uint32Ids cmds) (stale : ℕ) :
    Restricts cmds ankId stale ∧ Shaped (removeCmds cmds ankId).1 := by
  obtain ⟨before, cut, after, hcut, heq, hshaped⟩ := h
  unfold Restricts
  cases after with
  | nil =>
      rw [hcut.removeCmds_last heq]
      refine ⟨?_, Shaped.nil⟩
      obtain ⟨kind, id⟩ := cut
      obtain rfl : kind = .ack := hshaped.last_ack (kind, id) (by simp)
      obtain rfl : id = ankId := heq
      symm
      rw [hcut.split_eq, ackNakIds_append]
      show _ = []
      rw [List.filter_eq_nil_iff]
      intro m hm
      simp only [decide_eq_true_eq, Nat.not_lt]
      rcases List.mem_append.mp hm with hm | hm
      · exact (lt_of_mem_spans hcut.below hm).le
      · simp [List.mem_singleton.mp hm]
  | cons next after =>
      obtain ⟨last, hlast⟩ : ∃ last, (next :: after).getLast? = some last :=
        ⟨_, List.getLast?_eq_some_getLast (by simp)⟩
      have hget : cmds.getLast? = some last := by
        rw [hcut.getLast?_eq, List.getLast?_cons_cons, hlast]
      have hmem : last ∈ next :: after := List.mem_of_getLast? hlast
      have hlt : cut.2 < last.2 :=
        (List.pairwise_cons.mp hshaped.increasing).1 last.2 (List.mem_map_of_mem hmem)
      have hbound : last.2 < 2 ^ 32 := hids last (List.mem_of_getLast? hget)
      have hwrap : (ankId + 1) % 2 ^ 32 = ankId + 1 := Nat.mod_eq_of_lt (by omega)
      rw [hcut.filter_ackNakIds heq hshaped]
      by_cases hnext : next.2 = ankId + 1
      · rw [hcut.removeCmds_next hget (by omega) heq (by rw [hwrap, hnext]), hnext, span_self,
          List.nil_append]
        exact ⟨rfl, hshaped.tail⟩
      · have hfirst := hshaped.lt
        rw [hcut.removeCmds_move hget (by omega) heq (by rwa [hwrap]), hwrap, ackNakIds_cons_cons]
        exact ⟨rfl, hshaped.move (by omega)⟩

/-- **The cut keeps exactly the ids behind the ANK id when it falls on an entry.** For every
history that is reached, and every acknowledged id that it covers as the ANK id, the array
that is left reads as the old one restricted to the ids behind the ANK id, and has the shape
of a compressed array, if and only if the first entry that is not below the ANK id has the
ANK id itself, and that shape begins there. -/
theorem removeCmds_restricts_iff {actions : List HistoryAction} {history : AckNakHistory}
    (hadm : Admissible historyStep (fun _ action => action.IsUint32) vAckNakHistoryInit actions)
    (hrun : run historyStep vAckNakHistoryInit actions = some history) {ankId stale : ℕ}
    (hcov : (.ack, ankId) ∈ ackNakIds history.cmds stale) :
    (ackNakIds (vAckNakHistoryRemoveCmds history ankId).cmds stale =
        (ackNakIds history.cmds stale).filter (fun m => ankId < m.2) ∧
      Shaped (vAckNakHistoryRemoveCmds history ankId).cmds) ↔
    CutsAtEntry history.cmds ankId := by
  have hids := uint32Ids_of_run hadm hrun
  constructor
  · rintro ⟨hrestricts, hshaped⟩
    exact Restricts.cutsAtEntry hrestricts hshaped hids hcov
  · intro h
    exact h.restricts hids stale

/-- Five packets arrived in order, and the cut is at the first one. -/
theorem removeCmds_restricts_iff_sample :
    (ackNakIds (vAckNakHistoryRemoveCmds ⟨[(.ack, 10), (.ack, 14)], 4, by decide, by decide⟩ 10).cmds
        0 = (ackNakIds [(.ack, 10), (.ack, 14)] 0).filter (fun m => 10 < m.2) ∧
      Shaped (vAckNakHistoryRemoveCmds ⟨[(.ack, 10), (.ack, 14)], 4, by decide, by decide⟩ 10).cmds) ↔
    CutsAtEntry [(.ack, 10), (.ack, 14)] 10 := by
  have hrun : run historyStep vAckNakHistoryInit
      [.addCmd (.ack, 10), .addCmd (.ack, 11), .addCmd (.ack, 12), .addCmd (.ack, 13),
        .addCmd (.ack, 14)] =
      some ⟨[(.ack, 10), (.ack, 14)], 4, by decide, by decide⟩ := rfl
  exact removeCmds_restricts_iff (by simp [Admissible, HistoryAction.IsUint32]) hrun (by decide)

/-- **The ANK id stays in the history.**  The packets 10 to 20 arrived in order; the cut at 15
leaves an array that still reads 15 as acknowledged. -/
theorem removeCmds_keeps_ankId :
    ∃ history, run historyStep vAckNakHistoryInit
        ((List.range' 10 11).map fun id => .addCmd (.ack, id)) = some history ∧
      history.cmds = [(.ack, 10), (.ack, 20)] ∧
      (.ack, 15) ∈ ackNakIds history.cmds 0 ∧
      (vAckNakHistoryRemoveCmds history 15).cmds = [(.ack, 15), (.ack, 20)] ∧
      (.ack, 15) ∈ ackNakIds (vAckNakHistoryRemoveCmds history 15).cmds 0 ∧
      ackNakIds (vAckNakHistoryRemoveCmds history 15).cmds 0 ≠
        (ackNakIds history.cmds 0).filter (fun m => 15 < m.2) := by
  refine ⟨_, rfl, ?_⟩
  decide +kernel

/-! ## Histories of packets that arrived -/

variable {marks : List AckNakCmd} {last : ℕ}

theorem Compressed.shaped (h : Compressed cmds last marks) : Shaped cmds where
  increasing := h.alternates.pairwise
  last_ack := by
    intro cmd hcmd
    rw [h.last_eq cmd hcmd]
  no_naks := by
    intro before after m n heq
    exact Alternates.not_nak_nak (heq ▸ h.alternates)

/-- In the history of packets whose payload ids grow, the cut keeps exactly the ids behind
the ANK id if and only if some entry has the ANK id. -/
theorem Compressed.cutsAtEntry_iff (h : Compressed cmds last marks) :
    CutsAtEntry cmds ankId ↔ ankId ∈ cmds.map Prod.snd := by
  constructor
  · rintro ⟨before, cut, after, hcut, rfl, -⟩
    rw [hcut.split_eq]
    simp
  · intro hmem
    obtain ⟨cmd, hcmd, rfl⟩ := List.mem_map.mp hmem
    obtain ⟨before, after, hsplit⟩ := List.append_of_mem hcmd
    have hcut : CutAt cmds cmd.2 before cmd after := by
      refine ⟨hsplit, ?_, Nat.le_refl _⟩
      have hpair := h.alternates.pairwise
      rw [hsplit, List.map_append, List.pairwise_append] at hpair
      intro other hother
      exact hpair.2.2 other.2 (List.mem_map_of_mem hother) cmd.2 (by simp)
    refine ⟨before, cmd, after, hcut, rfl, ?_⟩
    obtain ⟨marks', h', -⟩ := (hsplit ▸ h).drop
    exact h'.shaped

end Verse
