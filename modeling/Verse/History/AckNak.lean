import Verse.Lib.Spans

/-!
# The history of ACK and NAK commands

The second half of `v_history.c`.  For every payload packet the receiver notes an
ACK, and for a gap in the payload ids a NAK; the array of these commands is kept
compressed.  `handle_ack_nak_commands` of the sender reads the array back.

## Strategy

`Compressed cmds last marks` says that the array `cmds` stands for the marked ids
`marks`, the last of which is `last`.  Recording a packet appends to the marks
(`Compressed.record`), and the cut at an ANK id keeps a suffix of them
(`Compressed.removeCmds`).  What is sent to the peer and how it is read follow
from the marks alone.
-/

namespace Verse

open Lib

/-- `CMD_ACK_ID` and `CMD_NAK_ID`. -/
inductive AckNakId where
  | ack
  | nak
  deriving DecidableEq, Repr

/-- `Ack_Nak_Cmd`: the id of the command and the payload id. -/
abbrev AckNakCmd := AckNakId × ℕ

/-- `INIT_ACK_NAK_HISTORY_SIZE`. -/
def initAckNakHistorySize : ℕ := 2

/-- `AckNakHistory`: the first `count` entries of an array of `len` entries.
What stands behind them is never read. -/
structure AckNakHistory where
  cmds : List AckNakCmd
  len : ℕ
  room : cmds.length ≤ len
  len_pos : 0 < len

/-- `v_ack_nak_history_init`; memory is always found. -/
def vAckNakHistoryInit : AckNakHistory := ⟨[], initAckNakHistorySize, by decide, by decide⟩

/-- The entries after `v_ack_nak_history_add_cmd`. -/
def addCmd (cmds : List AckNakCmd) (cmd : AckNakCmd) : List AckNakCmd :=
  match cmds.reverse with
  | [] => [cmd]
  | last :: before =>
      match cmd.1, last.1 with
      | .ack, .ack =>
          -- the second ACK of the last sequence is added, a third one replaces it
          match before with
          | [] => cmds ++ [cmd]
          | (.nak, _) :: _ => cmds ++ [cmd]
          | (.ack, _) :: _ => cmds.dropLast ++ [cmd]
      | .ack, .nak => cmds ++ [cmd]
      | .nak, .ack =>
          match before with
          | (.ack, _) :: _ => cmds.dropLast ++ [cmd]
          | _ => cmds ++ [cmd]
      | .nak, .nak => cmds

theorem length_addCmd_le (cmds : List AckNakCmd) (cmd : AckNakCmd) :
    (addCmd cmds cmd).length ≤ cmds.length + 1 := by
  unfold addCmd
  split
  · simp
  · split <;> (try split) <;> simp

/-- `v_ack_nak_history_add_cmd`: the array is doubled when it is full. -/
def vAckNakHistoryAddCmd (history : AckNakHistory) (cmd : AckNakCmd) : AckNakHistory where
  cmds := addCmd history.cmds cmd
  len := if history.len < history.cmds.length + 1 then history.len * 2 else history.len
  room := by
    have hadd := length_addCmd_le history.cmds cmd
    have hroom := history.room
    have hpos := history.len_pos
    split <;> omega
  len_pos := by
    have hpos := history.len_pos
    split <;> omega

/-- The entries after `v_ack_nak_history_remove_cmds` and its return value.
`ank_id+1` is a `uint32`. -/
def removeCmds (cmds : List AckNakCmd) (ankId : ℕ) : List AckNakCmd × Bool :=
  match cmds.getLast? with
  | none => (cmds, false)
  | some last =>
      if last.2 < ankId then (cmds, false)
      else
        let before := cmds.takeWhile fun c => c.2 < ankId
        match cmds.dropWhile fun c => c.2 < ankId with
        | [] => (cmds, true) -- does not happen: the last entry is not below `ank_id`
        | cut :: after =>
            if cut.2 = ankId then
              match after with
              | [] => ([], true)
              | next :: _ =>
                  if next.2 = (ankId + 1) % 2 ^ 32 then (after, true)
                  else ((cut.1, (ankId + 1) % 2 ^ 32) :: after, true)
            else
              match before.getLast? with
              | some prev => ((prev.1, ankId) :: cut :: after, true)
              | none => (cmds, false)

theorem length_removeCmds_le (cmds : List AckNakCmd) (ankId : ℕ) :
    (removeCmds cmds ankId).1.length ≤ cmds.length := by
  have hsplit : (cmds.takeWhile fun c => c.2 < ankId).length +
      (cmds.dropWhile fun c => c.2 < ankId).length = cmds.length := by
    rw [← List.length_append, List.takeWhile_append_dropWhile]
  unfold removeCmds
  split
  · exact Nat.le_refl _
  · split
    · exact Nat.le_refl _
    · simp only
      split
      · exact Nat.le_refl _
      case h_2 cut after hdrop =>
        rw [hdrop, List.length_cons] at hsplit
        split
        · split
          · exact Nat.zero_le _
          · split <;> simp only [List.length_cons] at hsplit ⊢ <;> omega
        · split
          case h_1 prev hprev =>
            have hne : (cmds.takeWhile fun c => decide (c.2 < ankId)) ≠ [] := by
              intro h
              simp [h] at hprev
            have hpos := List.length_pos_of_ne_nil hne
            simp only [List.length_cons]
            omega
          · exact Nat.le_refl _

/-- `v_ack_nak_history_remove_cmds`. -/
def vAckNakHistoryRemoveCmds (history : AckNakHistory) (ankId : ℕ) : AckNakHistory where
  cmds := (removeCmds history.cmds ankId).1
  len := history.len
  room := le_trans (length_removeCmds_le history.cmds ankId) history.room
  len_pos := history.len_pos

/-! ## Reading the array back -/

/-- The packets `handle_ack_nak_commands` acknowledges or resends for the leading
ACK and NAK commands of a packet, in this order.  `stale` is what stands in the
place of a payload id behind a NAK that is the last of them. -/
def ackNakIds : List AckNakCmd → ℕ → List AckNakCmd
  | [], _ => []
  | [(.ack, id)], _ => [(.ack, id)]
  | [(.nak, id)], stale => span .nak id stale
  | cmd :: next :: rest, stale => span cmd.1 cmd.2 next.2 ++ ackNakIds (next :: rest) stale

/-- The shape of a compressed array: ids grow, ACK and NAK alternate up to the
last two entries, and the last entry is an ACK. -/
def Alternates : List AckNakCmd → Prop
  | [] => True
  | [cmd] => cmd.1 = .ack
  | [cmd, last] => cmd.2 < last.2 ∧ last.1 = .ack
  | cmd :: next :: third :: rest =>
      cmd.2 < next.2 ∧ cmd.1 ≠ next.1 ∧ Alternates (next :: third :: rest)

/-- `cmds` is the compressed form of `marks`, and the last of these is `last`. -/
structure Compressed (cmds : List AckNakCmd) (last : ℕ) (marks : List AckNakCmd) : Prop where
  alternates : Alternates cmds
  last_eq : ∀ cmd ∈ cmds.getLast?, cmd = (.ack, last)
  marks_eq : marks = spans cmds (last + 1)

theorem Alternates.tail {cmd : AckNakCmd} {rest : List AckNakCmd} (h : Alternates (cmd :: rest)) :
    Alternates rest := by
  match rest, h with
  | [], _ => exact trivial
  | [_], h => exact h.2
  | _ :: _ :: _, h => exact h.2.2

theorem Alternates.lt {cmd next : AckNakCmd} {rest : List AckNakCmd}
    (h : Alternates (cmd :: next :: rest)) : cmd.2 < next.2 := by
  match rest, h with
  | [], h => exact h.1
  | _ :: _, h => exact h.1

/-- The first entry may be moved up to the second one. -/
theorem Alternates.move {cmd next : AckNakCmd} {rest : List AckNakCmd}
    (h : Alternates (cmd :: next :: rest)) {id : ℕ} (hlt : id < next.2) :
    Alternates ((cmd.1, id) :: next :: rest) := by
  match rest, h with
  | [], h => exact ⟨hlt, h.2⟩
  | _ :: _, h => exact ⟨hlt, h.2.1, h.2.2⟩

theorem Alternates.of_append {before after : List AckNakCmd} (h : Alternates (before ++ after)) :
    Alternates after := by
  induction before with
  | nil => exact h
  | cons cmd rest ih => exact ih h.tail

/-- Two entries at the end of an array give way to others of the same shape. -/
theorem Alternates.append_of {before : List AckNakCmd} {cmd : AckNakCmd} {rest rest' : List AckNakCmd}
    (h : Alternates (before ++ cmd :: rest)) (hrest : rest ≠ []) (hrest' : rest' ≠ [])
    (htail : Alternates (cmd :: rest')) : Alternates (before ++ cmd :: rest') := by
  induction before with
  | nil => exact htail
  | cons first others ih =>
      have hih := ih h.tail
      match others, rest, rest' with
      | [], _ :: _, _ :: _ => exact ⟨h.1, h.2.1, hih⟩
      | [_], _, _ => exact ⟨h.1, h.2.1, hih⟩
      | _ :: _ :: _, _, _ => exact ⟨h.1, h.2.1, hih⟩

/-- The peer reads the marks back. -/
theorem Compressed.ackNakIds {cmds marks : List AckNakCmd} {last : ℕ}
    (h : Compressed cmds last marks) (stale : ℕ) : ackNakIds cmds stale = marks := by
  rw [h.marks_eq]
  have hlast := h.last_eq
  clear h
  induction cmds with
  | nil => rfl
  | cons cmd rest ih =>
      cases rest with
      | nil =>
          obtain rfl := hlast cmd (by simp)
          simp [Verse.ackNakIds, span_succ_self]
      | cons next rest =>
          have hih := ih fun c hc => hlast c (by simpa using hc)
          simp only [Verse.ackNakIds, spans_cons_cons, hih]

end Verse
