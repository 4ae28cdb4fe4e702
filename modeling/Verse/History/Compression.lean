import Verse.History.AckNak
import Mathlib.Data.List.Chain
import Mathlib.Data.List.TakeWhile

/-!
# Acknowledgement compression

What `handle_node_commands` notes about received packets, and that nothing is
lost in the compressed array: reading it back the way the sender does gives an
ACK for every received payload id and a NAK for every skipped one.
-/

namespace Verse

open Lib

/-! ## Recording a packet -/

/-- What `handle_node_commands` does to the history of ACK and NAK commands.
`none` is `RECEIVE_PACKET_UNORDERED`.  `last_r_pay+1` is a `uint32`. -/
def recordPayload (history : AckNakHistory) (lastRPay payloadId : ℕ) : Option AckNakHistory :=
  let expected := (lastRPay + 1) % 2 ^ 32
  if expected < payloadId then
    some (vAckNakHistoryAddCmd (vAckNakHistoryAddCmd history (.nak, expected)) (.ack, payloadId))
  else if payloadId < expected then none
  else some (vAckNakHistoryAddCmd history (.ack, payloadId))

variable {cmds marks : List AckNakCmd} {last : ℕ}

/-- An array is empty, one ACK, or ends with two entries of which the last is an
ACK. -/
theorem Compressed.cases (h : Compressed cmds last marks) :
    cmds = [] ∨ cmds = [(.ack, last)] ∨
      ∃ before prev, cmds = before ++ [prev, (.ack, last)] := by
  rcases List.eq_nil_or_concat cmds with rfl | ⟨init, x, rfl⟩
  · exact Or.inl rfl
  · obtain rfl := h.last_eq x (by simp)
    rcases List.eq_nil_or_concat init with rfl | ⟨before, prev, rfl⟩
    · exact Or.inr (Or.inl rfl)
    · exact Or.inr (Or.inr ⟨before, prev, by simp⟩)

theorem Compressed.prev_lt {before : List AckNakCmd} {prev : AckNakCmd}
    (h : Compressed (before ++ [prev, (.ack, last)]) last marks) : prev.2 < last :=
  h.alternates.of_append.lt

/-- The next packet in order arrived. -/
theorem Compressed.add_ack (h : Compressed cmds last marks) :
    Compressed (addCmd cmds (.ack, last + 1)) (last + 1) (marks ++ [(.ack, last + 1)]) := by
  have hmarks := h.marks_eq
  rcases h.cases with rfl | rfl | ⟨before, ⟨kind, prev⟩, rfl⟩
  · refine ⟨rfl, by simp [addCmd], ?_⟩
    simp [hmarks, addCmd, span_succ_self]
  · refine ⟨⟨Nat.lt_succ_self _, rfl⟩, by simp [addCmd], ?_⟩
    simp [hmarks, addCmd, spans_cons_cons, span_succ_self]
  · have hlt : prev < last := h.prev_lt
    cases kind with
    | nak =>
        have hadd : addCmd (before ++ [(.nak, prev), (.ack, last)]) (.ack, last + 1) =
            before ++ (.nak, prev) :: [(.ack, last), (.ack, last + 1)] := by simp [addCmd]
        rw [hadd]
        refine ⟨h.alternates.append_of (by simp) (by simp) ?_, by simp, ?_⟩
        · exact ⟨hlt, by simp, Nat.lt_succ_self _, rfl⟩
        · simp [hmarks, spans_append, spans_cons_cons, span_succ_self]
    | ack =>
        have hadd : addCmd (before ++ [(.ack, prev), (.ack, last)]) (.ack, last + 1) =
            before ++ (.ack, prev) :: [(.ack, last + 1)] := by simp [addCmd]
        rw [hadd]
        refine ⟨h.alternates.append_of (by simp) (by simp) ⟨by simp only; omega, rfl⟩, by simp, ?_⟩
        -- the last entry moved on, and what it covered now belongs to the one before it
        have hjoin : span AckNakId.ack prev last ++ [(.ack, last)] = span .ack prev (last + 1) := by
          rw [← span_succ_self, span_append_span _ (by omega) (by omega)]
        simp [hmarks, spans_append, spans_cons_cons, span_succ_self, ← hjoin]

/-- A packet arrived after a gap. -/
theorem Compressed.add_nak_ack (h : Compressed cmds last marks) {payloadId : ℕ}
    (hgap : last + 1 < payloadId) :
    Compressed (addCmd (addCmd cmds (.nak, last + 1)) (.ack, payloadId)) payloadId
      (marks ++ span .nak (last + 1) payloadId ++ [(.ack, payloadId)]) := by
  have hmarks := h.marks_eq
  rcases h.cases with rfl | rfl | ⟨before, ⟨kind, prev⟩, rfl⟩
  · refine ⟨⟨hgap, rfl⟩, by simp [addCmd], ?_⟩
    simp [hmarks, addCmd, spans_cons_cons, span_succ_self]
  · refine ⟨⟨Nat.lt_succ_self _, by simp, hgap, rfl⟩, by simp [addCmd], ?_⟩
    simp [hmarks, addCmd, spans_cons_cons, span_succ_self]
  · have hlt : prev < last := h.prev_lt
    cases kind with
    | nak =>
        have hadd : addCmd (addCmd (before ++ [(.nak, prev), (.ack, last)]) (.nak, last + 1))
            (.ack, payloadId) =
            before ++ (.nak, prev) :: [(.ack, last), (.nak, last + 1), (.ack, payloadId)] := by
          simp [addCmd]
        rw [hadd]
        refine ⟨h.alternates.append_of (by simp) (by simp) ?_, by simp, ?_⟩
        · exact ⟨hlt, by simp, Nat.lt_succ_self _, by simp, hgap, rfl⟩
        · simp [hmarks, spans_append, spans_cons_cons, span_succ_self]
    | ack =>
        have hadd : addCmd (addCmd (before ++ [(.ack, prev), (.ack, last)]) (.nak, last + 1))
            (.ack, payloadId) =
            before ++ (.ack, prev) :: [(.nak, last + 1), (.ack, payloadId)] := by
          simp [addCmd]
        rw [hadd]
        have hjoin : span AckNakId.ack prev last ++ [(.ack, last)] = span .ack prev (last + 1) := by
          rw [← span_succ_self, span_append_span _ (by omega) (by omega)]
        refine ⟨h.alternates.append_of (by simp) (by simp) ?_, by simp, ?_⟩
        · exact ⟨by simp only; omega, by simp, hgap, rfl⟩
        · simp [hmarks, spans_append, spans_cons_cons, span_succ_self, ← hjoin]

/-- **Recording appends to the marks**: a NAK for each id that was skipped, and an
ACK for the id that arrived. -/
theorem Compressed.record {history : AckNakHistory} (h : Compressed history.cmds last marks)
    {payloadId : ℕ} (hlt : last < payloadId) (hbound : payloadId < 2 ^ 32) :
    ∃ history', recordPayload history last payloadId = some history' ∧
      Compressed history'.cmds payloadId
        (marks ++ span .nak (last + 1) payloadId ++ [(.ack, payloadId)]) := by
  have hexpected : (last + 1) % 2 ^ 32 = last + 1 := Nat.mod_eq_of_lt (by omega)
  unfold recordPayload
  rw [hexpected]
  by_cases hgap : last + 1 < payloadId
  · rw [if_pos hgap]
    exact ⟨_, rfl, h.add_nak_ack hgap⟩
  · obtain rfl : payloadId = last + 1 := by omega
    rw [if_neg (Nat.lt_irrefl _), if_neg (Nat.lt_irrefl _)]
    refine ⟨_, rfl, ?_⟩
    rw [span_self, List.append_nil]
    exact h.add_ack

/-! ## Cutting the array at an ANK id -/

theorem Compressed.le_last (h : Compressed cmds last marks) : ∀ cmd ∈ cmds, cmd.2 ≤ last := by
  have halt := h.alternates
  have hlast := h.last_eq
  clear h
  induction cmds with
  | nil => simp
  | cons first rest ih =>
      cases rest with
      | nil =>
          intro cmd hcmd
          obtain rfl := List.mem_singleton.mp hcmd
          rw [hlast cmd (by simp)]
      | cons next rest =>
          have htail := ih halt.tail fun c hc => hlast c (by simpa using hc)
          intro cmd hcmd
          rcases List.mem_cons.mp hcmd with rfl | hmem
          · have hlt := halt.lt
            have hle := htail next (by simp)
            omega
          · exact htail cmd hmem

/-- The end of a compressed array is a compressed array. -/
theorem Compressed.drop {before after : List AckNakCmd} {cmd : AckNakCmd}
    (h : Compressed (before ++ cmd :: after) last marks) :
    ∃ marks', Compressed (cmd :: after) last marks' ∧ marks' <:+ marks := by
  refine ⟨_, ⟨h.alternates.of_append, ?_, rfl⟩, ?_⟩
  · intro c hc
    apply h.last_eq
    simpa using hc
  · rw [h.marks_eq, spans_append]
    exact List.suffix_append _ _

/-- The first entry may start later. -/
theorem Compressed.move {cmd next : AckNakCmd} {rest : List AckNakCmd}
    (h : Compressed (cmd :: next :: rest) last marks) (id : ℕ) (hle : cmd.2 ≤ id)
    (hlt : id < next.2) :
    ∃ marks', Compressed ((cmd.1, id) :: next :: rest) last marks' ∧ marks' <:+ marks := by
  refine ⟨_, ⟨h.alternates.move hlt, ?_, rfl⟩, ?_⟩
  · intro c hc
    apply h.last_eq
    simpa using hc
  · rw [h.marks_eq, spans_cons_cons, spans_cons_cons]
    obtain ⟨front, hfront⟩ := span_suffix cmd.1 hle (Nat.le_of_lt hlt)
    exact ⟨front, by rw [← hfront, List.append_assoc]⟩

/-- **The cut keeps a suffix of the marks.** -/
theorem Compressed.removeCmds (h : Compressed cmds last marks) (hbound : last < 2 ^ 32)
    (ankId : ℕ) :
    ∃ marks', Compressed (removeCmds cmds ankId).1 last marks' ∧ marks' <:+ marks := by
  have hsame : ∃ marks', Compressed cmds last marks' ∧ marks' <:+ marks :=
    ⟨marks, h, List.suffix_refl _⟩
  have hempty : ∃ marks', Compressed [] last marks' ∧ marks' <:+ marks :=
    ⟨[], ⟨trivial, by simp, rfl⟩, List.nil_suffix⟩
  have hsplit : (cmds.takeWhile fun c => decide (c.2 < ankId)) ++
      (cmds.dropWhile fun c => decide (c.2 < ankId)) = cmds := List.takeWhile_append_dropWhile
  have hbelow : ∀ c ∈ cmds.takeWhile fun c => decide (c.2 < ankId), c.2 < ankId := by
    intro c hc
    simpa using List.mem_takeWhile_imp hc
  unfold Verse.removeCmds
  split
  · exact hsame
  · split
    · exact hsame
    · simp only
      split
      · exact hsame
      case h_2 cut after hdrop =>
        have hcut : ankId ≤ cut.2 := by
          have hhead := List.head_dropWhile_not (fun c => decide (c.2 < ankId)) (l := cmds)
            (by simp [hdrop])
          simpa [hdrop] using hhead
        rw [hdrop] at hsplit
        split
        case isTrue heq =>
          split
          · exact hempty
          case h_2 next rest =>
            rw [← hsplit] at h
            obtain ⟨marks₁, h₁, hsuffix₁⟩ := h.drop
            have hlt : cut.2 < next.2 := h₁.alternates.lt
            have hle := h₁.le_last next (by simp)
            have hwrap : (ankId + 1) % 2 ^ 32 = ankId + 1 := Nat.mod_eq_of_lt (by omega)
            rw [hwrap]
            split
            · have hcons : Compressed ([cut] ++ next :: rest) last marks₁ := h₁
              obtain ⟨marks₂, h₂, hsuffix₂⟩ := hcons.drop
              exact ⟨marks₂, h₂, hsuffix₂.trans hsuffix₁⟩
            · obtain ⟨marks₂, h₂, hsuffix₂⟩ := h₁.move (ankId + 1) (by omega) (by omega)
              exact ⟨marks₂, h₂, hsuffix₂.trans hsuffix₁⟩
        case isFalse hne =>
          split
          case h_1 prev hprev =>
            -- the entry before the cut moves up to the ANK id
            have hbefore := List.dropLast_append_getLast? prev hprev
            have hmem : prev ∈ cmds.takeWhile fun c => decide (c.2 < ankId) :=
              List.mem_of_getLast? hprev
            have hlt := hbelow prev hmem
            rw [← hsplit, ← hbefore, List.append_assoc, List.singleton_append] at h
            obtain ⟨marks₁, h₁, hsuffix₁⟩ := h.drop
            obtain ⟨marks₂, h₂, hsuffix₂⟩ := h₁.move ankId (by omega) (by omega)
            exact ⟨marks₂, h₂, hsuffix₂.trans hsuffix₁⟩
          · exact hsame

/-! ## Recording a sequence of packets -/

/-- The history after packets with the payload ids `ids`, each of which becomes
`last_r_pay`. -/
def recordAll (history : AckNakHistory) (lastRPay : ℕ) : List ℕ → Option AckNakHistory
  | [] => some history
  | id :: rest => (recordPayload history lastRPay id).bind fun history => recordAll history id rest

/-- What the packets `ids` stand for: every id behind `last` with its mark. -/
def marksOf (last : ℕ) : List ℕ → List AckNakCmd
  | [] => []
  | id :: rest => span .nak (last + 1) id ++ (.ack, id) :: marksOf id rest

/-- The payload ids with the mark `kind`. -/
def idsOf (kind : AckNakId) (marks : List AckNakCmd) : List ℕ :=
  (marks.filter fun mark => mark.1 = kind).map Prod.snd

@[simp] theorem idsOf_append (kind : AckNakId) (xs ys : List AckNakCmd) :
    idsOf kind (xs ++ ys) = idsOf kind xs ++ idsOf kind ys := by
  simp [idsOf]

theorem idsOf_span_self (kind : AckNakId) (start stop : ℕ) :
    idsOf kind (span kind start stop) = List.range' start (stop - start) := by
  simp [idsOf, span, List.filter_map, Function.comp_def]

theorem idsOf_span_of_ne {kind other : AckNakId} (h : other ≠ kind) (start stop : ℕ) :
    idsOf kind (span other start stop) = [] := by
  simp [idsOf, span, List.filter_map, Function.comp_def, h]

theorem recordAll_compressed {history : AckNakHistory} (h : Compressed history.cmds last marks)
    {ids : List ℕ} (hchain : (last :: ids).IsChain (· < ·)) (hbound : ∀ id ∈ ids, id < 2 ^ 32) :
    ∃ history', recordAll history last ids = some history' ∧
      Compressed history'.cmds ((last :: ids).getLast (by simp)) (marks ++ marksOf last ids) := by
  induction ids generalizing history last marks with
  | nil => exact ⟨history, rfl, by simpa [marksOf] using h⟩
  | cons id rest ih =>
      rw [List.isChain_cons_cons] at hchain
      obtain ⟨history₁, hrecord, h₁⟩ := h.record hchain.1 (hbound id (by simp))
      obtain ⟨history₂, hrest, h₂⟩ := ih h₁ hchain.2 fun n hn => hbound n (by simp [hn])
      refine ⟨history₂, by simp [recordAll, hrecord, hrest], ?_⟩
      rw [List.getLast_cons (by simp)]
      simpa [marksOf] using h₂

/-! ## What the marks say -/

theorem idsOf_ack_marksOf (last : ℕ) (ids : List ℕ) : idsOf .ack (marksOf last ids) = ids := by
  induction ids generalizing last with
  | nil => rfl
  | cons id rest ih =>
      rw [marksOf, idsOf_append, idsOf_span_of_ne (by simp), List.nil_append]
      simpa [idsOf] using ih id

/-- The ids of an increasing sequence come after its start. -/
theorem lt_of_isChain {ids : List ℕ} (h : (last :: ids).IsChain (· < ·)) {id : ℕ}
    (hid : id ∈ ids) : last < id := by
  have := List.pairwise_cons.mp (List.isChain_iff_pairwise.mp h)
  exact this.1 id hid

theorem le_getLast_of_isChain {ids : List ℕ} (h : (last :: ids).IsChain (· < ·)) :
    last ≤ (last :: ids).getLast (by simp) := by
  cases ids with
  | nil => simp
  | cons id rest =>
      rw [List.getLast_cons (by simp)]
      exact Nat.le_of_lt (lt_of_isChain h (List.getLast_mem _))

theorem idsOf_nak_marksOf {ids : List ℕ} (hchain : (last :: ids).IsChain (· < ·)) :
    idsOf .nak (marksOf last ids) =
      (List.range' (last + 1) ((last :: ids).getLast (by simp) - last)).filter (· ∉ ids) := by
  induction ids generalizing last with
  | nil => simp [marksOf, idsOf]
  | cons id rest ih =>
      have htail := (List.isChain_cons_cons.mp hchain).2
      have hlt : last < id := (List.isChain_cons_cons.mp hchain).1
      have hle := le_getLast_of_isChain htail
      have hrest := ih htail
      rw [List.getLast_cons (by simp)]
      generalize (id :: rest).getLast (by simp) = final at hle hrest ⊢
      -- the ids up to `final` are those before `id`, `id` itself and those behind it
      have hsplit : List.range' (last + 1) (final - last) =
          List.range' (last + 1) (id - (last + 1)) ++ id :: List.range' (id + 1) (final - id) := by
        have h1 : final - last = (id - (last + 1)) + ((final - id) + 1) := by omega
        have h2 : last + 1 + (id - (last + 1)) = id := by omega
        rw [h1, ← List.range'_append_1, h2, List.range'_succ]
      have hbefore : (List.range' (last + 1) (id - (last + 1))).filter (· ∉ id :: rest) =
          List.range' (last + 1) (id - (last + 1)) := by
        rw [List.filter_eq_self]
        intro n hn
        have hn' := List.mem_range'_1.mp hn
        have hnot : n ∉ id :: rest := by
          intro hmem
          rcases List.mem_cons.mp hmem with rfl | hmem
          · omega
          · have := lt_of_isChain htail hmem
            omega
        simpa using hnot
      have hbehind : (List.range' (id + 1) (final - id)).filter (· ∉ id :: rest) =
          (List.range' (id + 1) (final - id)).filter (· ∉ rest) := by
        apply List.filter_congr
        intro n hn
        have hn' := List.mem_range'_1.mp hn
        have hne : n ≠ id := by omega
        simp [hne]
      have hmark : idsOf .nak ((.ack, id) :: marksOf id rest) = idsOf .nak (marksOf id rest) := by
        simp [idsOf]
      rw [marksOf, idsOf_append, idsOf_span_self, hmark, hrest, hsplit, List.filter_append, hbefore,
        List.filter_cons_of_neg (by simp), hbehind]

/-! ## The shape of the array -/

theorem Alternates.pairwise (h : Alternates cmds) : (cmds.map Prod.snd).Pairwise (· < ·) := by
  rw [← List.isChain_iff_pairwise]
  induction cmds with
  | nil => exact .nil
  | cons cmd rest ih =>
      cases rest with
      | nil => exact .singleton _
      | cons next rest => exact .cons_cons h.lt (ih h.tail)

theorem Alternates.not_nak_nak {before after : List AckNakCmd} {m n : ℕ} :
    ¬ Alternates (before ++ (.nak, m) :: (.nak, n) :: after) := by
  intro h
  have hcut := h.of_append
  cases after with
  | nil => exact absurd hcut.2 (by simp)
  | cons cmd after => exact absurd rfl hcut.2.1

theorem Alternates.ack_ack {before after : List AckNakCmd} {m n : ℕ}
    (h : Alternates (before ++ (.ack, m) :: (.ack, n) :: after)) : after = [] := by
  have hcut := h.of_append
  cases after with
  | nil => rfl
  | cons cmd after => exact absurd rfl hcut.2.1

/-- The first mark is the first entry. -/
theorem head_marks (h : Compressed cmds last marks) (hne : cmds ≠ []) :
    marks.head? = cmds.head? := by
  rw [h.marks_eq]
  match cmds, h, hne with
  | [cmd], h, _ =>
      obtain rfl := h.last_eq cmd (by simp)
      simp [span_succ_self]
  | cmd :: next :: rest, h, _ =>
      have hlt := h.alternates.lt
      obtain ⟨k, hk⟩ : ∃ k, next.2 - cmd.2 = k + 1 := ⟨next.2 - cmd.2 - 1, by omega⟩
      simp [spans_cons_cons, span, hk, List.range'_succ]

/-- What the array begins with after the cut. -/
theorem Compressed.removeCmds_head (h : Compressed cmds last marks) (ankId : ℕ) :
    (Verse.removeCmds cmds ankId).1 = cmds ∨
      (Verse.removeCmds cmds ankId).1 = [] ∧ last ≤ ankId ∨
        ∃ head ∈ (Verse.removeCmds cmds ankId).1.head?, head.2 ≤ ankId + 1 := by
  have hsplit : (cmds.takeWhile fun c => decide (c.2 < ankId)) ++
      (cmds.dropWhile fun c => decide (c.2 < ankId)) = cmds := List.takeWhile_append_dropWhile
  have hmod : (ankId + 1) % 2 ^ 32 ≤ ankId + 1 := Nat.mod_le _ _
  unfold Verse.removeCmds
  split
  · exact Or.inl rfl
  · split
    · exact Or.inl rfl
    · simp only
      split
      · exact Or.inl rfl
      case h_2 cut after hdrop =>
        rw [hdrop] at hsplit
        split
        case isTrue heq =>
          split
          · -- the cut is at the last entry
            have hget : cmds.getLast? = some cut := by
              rw [← hsplit, List.getLast?_concat]
            have hlast := h.last_eq cut hget
            refine Or.inr (Or.inl ⟨rfl, ?_⟩)
            rw [← heq, hlast]
          case h_2 next rest =>
            refine Or.inr (Or.inr ?_)
            split
            case isTrue hnext => exact ⟨next, rfl, by omega⟩
            case isFalse => exact ⟨_, rfl, hmod⟩
        case isFalse hne =>
          split
          · exact Or.inr (Or.inr ⟨_, rfl, Nat.le_succ _⟩)
          · exact Or.inl rfl

/-- **The cut keeps the marks above the ANK id.** -/
theorem Compressed.removeCmds_above (h : Compressed cmds last marks) (hbound : last < 2 ^ 32)
    (hsorted : (marks.map Prod.snd).Pairwise (· < ·)) (ankId : ℕ) :
    ∃ marks', Compressed (Verse.removeCmds cmds ankId).1 last marks' ∧ marks' <:+ marks ∧
      ∀ m ∈ marks, m.2 ≤ last → ankId < m.2 → m ∈ marks' := by
  rcases h.removeCmds_head ankId with hsame | ⟨hnil, hle⟩ | ⟨head, hhead, hle⟩
  · exact ⟨marks, by rwa [hsame], List.suffix_refl _, fun m hm _ _ => hm⟩
  · obtain ⟨marks', h', hsuffix⟩ := h.removeCmds hbound ankId
    exact ⟨marks', h', hsuffix, fun m _ hm hlt => absurd hlt (by omega)⟩
  · obtain ⟨marks', h', front, rfl⟩ := h.removeCmds hbound ankId
    refine ⟨marks', h', List.suffix_append _ _, fun m hm _ hlt => ?_⟩
    have hne : (Verse.removeCmds cmds ankId).1 ≠ [] := by
      intro hnil
      simp [hnil] at hhead
    have hmem : head ∈ marks' := List.mem_of_mem_head? (head_marks h' hne ▸ hhead)
    refine (List.mem_append.mp hm).resolve_left fun hfront => ?_
    -- the marks that go are below the first one that stays
    rw [List.map_append, List.pairwise_append] at hsorted
    have := hsorted.2.2 m.2 (List.mem_map_of_mem hfront) head.2 (List.mem_map_of_mem hmem)
    omega

theorem head_marksOf {ids : List ℕ} (hchain : (last :: ids).IsChain (· < ·)) :
    ∀ mark ∈ (marksOf last ids).head?, mark.2 = last + 1 := by
  cases ids with
  | nil => simp [marksOf]
  | cons id rest =>
      have hlt : last < id := (List.isChain_cons_cons.mp hchain).1
      intro mark hmark
      by_cases hnext : id = last + 1
      · simp only [marksOf, hnext, span_self, List.nil_append, List.head?_cons,
          Option.mem_some_iff] at hmark
        rw [← hmark]
      · obtain ⟨k, hk⟩ : ∃ k, id - (last + 1) = k + 1 := ⟨id - (last + 1) - 1, by omega⟩
        simp only [marksOf, span, hk, List.range'_succ, List.map_cons, List.cons_append,
          List.head?_cons, Option.mem_some_iff] at hmark
        rw [← hmark]

/-- **Acknowledgement compression is lossless.**  Whatever increasing sequence of
packets arrived, the peer that reads the array back acknowledges exactly the
received ids, each once and in order, and resends exactly the ids that were
skipped between the first entry and the last. -/
theorem recordAll_lossless (lastRPay : ℕ) (ids : List ℕ)
    (hchain : (lastRPay :: ids).IsChain (· < ·)) (hbound : ∀ id ∈ ids, id < 2 ^ 32) :
    ∃ history, recordAll vAckNakHistoryInit lastRPay ids = some history ∧
      (∀ stale, idsOf .ack (ackNakIds history.cmds stale) = ids) ∧
      (∀ stale, ∀ first ∈ history.cmds.head?, ∀ final ∈ history.cmds.getLast?,
        idsOf .nak (ackNakIds history.cmds stale) =
          (List.range' first.2 (final.2 + 1 - first.2)).filter (· ∉ ids)) ∧
      (history.cmds.map Prod.snd).Pairwise (· < ·) ∧
      (∀ before after m n, history.cmds ≠ before ++ (.nak, m) :: (.nak, n) :: after) ∧
      (∀ before after m n, history.cmds = before ++ (.ack, m) :: (.ack, n) :: after → after = []) ∧
      ∀ final ∈ history.cmds.getLast?, final.1 = .ack := by
  have hempty : Compressed vAckNakHistoryInit.cmds lastRPay [] :=
    ⟨trivial, by simp [vAckNakHistoryInit], rfl⟩
  obtain ⟨history, hrun, hcompressed⟩ := recordAll_compressed hempty hchain hbound
  rw [List.nil_append] at hcompressed
  refine ⟨history, hrun, ?_, ?_, hcompressed.alternates.pairwise, ?_, ?_, ?_⟩
  · intro stale
    rw [hcompressed.ackNakIds, idsOf_ack_marksOf]
  · intro stale first hfirst final hfinal
    have hne : history.cmds ≠ [] := by
      intro hnil
      simp [hnil] at hfirst
    rw [← head_marks hcompressed hne] at hfirst
    have hstart := head_marksOf hchain first hfirst
    have hend := hcompressed.last_eq final hfinal
    rw [hcompressed.ackNakIds, idsOf_nak_marksOf hchain, hstart, hend]
    congr 2
    omega
  · intro before after m n heq
    exact Alternates.not_nak_nak (heq ▸ hcompressed.alternates)
  · intro before after m n heq
    exact Alternates.ack_ack (heq ▸ hcompressed.alternates)
  · intro final hfinal
    rw [hcompressed.last_eq final hfinal]

/-- The list of the comment in `v_history.c`, from ids 107 to 183. -/
theorem recordAll_lossless_comment :
    ∃ history, recordAll vAckNakHistoryInit 106
        (List.range' 107 8 ++ List.range' 146 11 ++ List.range' 179 5) = some history ∧
      history.cmds = [(.ack, 107), (.nak, 115), (.ack, 146), (.nak, 157), (.ack, 179),
        (.ack, 183)] ∧
      ∀ stale, idsOf .ack (ackNakIds history.cmds stale) =
        List.range' 107 8 ++ List.range' 146 11 ++ List.range' 179 5 := by
  obtain ⟨history, hrun, hack, -⟩ :=
    recordAll_lossless 106 (List.range' 107 8 ++ List.range' 146 11 ++ List.range' 179 5)
      (by decide) (by decide)
  refine ⟨history, hrun, ?_, hack⟩
  have hcmds : (recordAll vAckNakHistoryInit 106
      (List.range' 107 8 ++ List.range' 146 11 ++ List.range' 179 5)).map (·.cmds) =
        some [(.ack, 107), (.nak, 115), (.ack, 146), (.nak, 157), (.ack, 179), (.ack, 183)] := by
    decide +kernel
  rw [hrun] at hcmds
  simpa using hcmds

end Verse
