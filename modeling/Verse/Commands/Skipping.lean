import Verse.Commands.Termination

/-!
# Commands that are skipped

`_v_cmd_unpack` gives up a command in three places: when its id is no node command,
when the size of the shared address is no sum of leading key items, and when the length
is not the header and a whole number of commands.  The announced length of a command
counts from its first byte, but in all three places it is added to a position behind the
header, so the parser resumes in the middle of the next command:

* a command with a bad share or a bad length is always skipped too far;
* a command with an unknown id is skipped too far as well, unless it is the last one: a
  length that reaches the end of the buffer makes the code drop the rest of the buffer,
  which then is the command.
-/

namespace Verse

open Lib

/-- The length a command announces. -/
def announcedLen (buf : Mem) : ℕ := (vCmdUnpackLen (buf.shift 1)).2.1

/-- The size of the id and the length of a command. -/
def headerSize (buf : Mem) : ℕ := 1 + (vCmdUnpackLen (buf.shift 1)).1

/-- A command that cannot be parsed. -/
inductive BadCmd (buf : Mem) (bufferLen : ℕ) : Prop where
  | unknownId (hnode : (cmdStruct (buf 0).toNat).isNodeCmd = false)
  | badShare (hnode : (cmdStruct (buf 0).toNat).isNodeCmd = true)
      (hshares : (cmdStruct (buf 0).toNat).sharesAddr = true)
      (hnot : ∀ k ≤ (cmdStruct (buf 0).toNat).keyCount,
        sizeSum ((cmdStruct (buf 0).toNat).items.take k) ≠ (buf (headerSize buf)).toNat)
  | badLength {g : GroupHead} (hhead : cmdHead buf bufferLen = .group g)
      (hfixed : (cmdStruct g.id.toNat).varLen = false) (hcount : g.count? = none)

/-- The command at `start` is skipped exactly: nothing is pushed for it, the parser
resumes where its announced length ends, and so what stands around it is read as if it
were absent. -/
structure SkippedExactly (buf : Mem) (bufferLen : UInt16) (start : ℕ) : Prop where
  pass : vCmdUnpackOne (buf.shift start) (bufferLen.toNat - start) =
    some (announcedLen (buf.shift start), [])
  others : ∀ before after : List (List UInt8 × List GenericCmd),
    (∀ piece ∈ before, ReadsInside piece.1 piece.2) → ReadsAll after →
    (before.flatMap Prod.fst).length = start → Holds buf (before.flatMap Prod.fst) →
    start + announcedLen (buf.shift start) + (after.flatMap Prod.fst).length = bufferLen.toNat →
    Holds (buf.shift (start + announcedLen (buf.shift start))) (after.flatMap Prod.fst) →
      vCmdUnpack buf bufferLen =
        some (bufferLen.toNat, before.flatMap Prod.snd ++ after.flatMap Prod.snd)

/-! ## The position after a bad command -/

theorem vCmdUnpackOne_unknown {buf : Mem} {bufferLen : ℕ}
    (hnode : (cmdStruct (buf 0).toNat).isNodeCmd = false) :
    vCmdUnpackOne buf bufferLen =
      if 2 ≤ announcedLen buf ∧ announcedLen buf < sub32 bufferLen (headerSize buf) then
        some (headerSize buf + announcedLen buf, [])
      else some (bufferLen, []) := by
  simp only [vCmdUnpackOne, hnode, Bool.not_false, if_true, announcedLen, headerSize]
  rfl

theorem cmdHead_badShare {buf : Mem} {bufferLen : ℕ}
    (hnode : (cmdStruct (buf 0).toNat).isNodeCmd = true)
    (hshares : (cmdStruct (buf 0).toNat).sharesAddr = true)
    (hnot : ∀ k ≤ (cmdStruct (buf 0).toNat).keyCount,
      sizeSum ((cmdStruct (buf 0).toNat).items.take k) ≠ (buf (headerSize buf)).toNat) :
    cmdHead buf bufferLen = .skip (headerSize buf + 1 + announcedLen buf) := by
  have hshare : (buf (headerSize buf)).toNat ≠ 0 := by
    intro hzero
    exact hnot 0 (Nat.zero_le _) (by simp [sizeSum, hzero])
  generalize hfound : sharedItems (buf (headerSize buf)).toNat
    (cmdStruct (buf 0).toNat).keyItems 0 = found
  obtain ⟨sharedSize, skipItems⟩ := found
  obtain ⟨hskip, hsize⟩ := sharedItems_eq hfound
  have hne : sharedSize ≠ (buf (headerSize buf)).toNat := by
    intro heq
    have hkeys : skipItems ≤ (cmdStruct (buf 0).toNat).keyCount := by
      refine hskip.trans ?_
      rw [CmdStruct.keyItems, List.length_take]
      exact Nat.min_le_left _ _
    refine hnot skipItems hkeys ?_
    rw [← heq, hsize, Nat.zero_add, CmdStruct.keyItems, List.take_take, Nat.min_eq_left hkeys]
  simp only [headerSize] at hshare hfound hne
  simp only [cmdHead, hnode, hshares, Bool.not_true, Bool.false_eq_true, if_false, if_true,
    hfound, headerSize, announcedLen]
  rw [if_pos hshare, if_pos hne]

theorem cmdHead_length {buf : Mem} {bufferLen : ℕ} {g : GroupHead}
    (h : cmdHead buf bufferLen = .group g) : g.id = buf 0 ∧ g.length = announcedLen buf := by
  unfold cmdHead at h
  dsimp only at h
  split at h
  case isTrue => split at h <;> cases h
  case isFalse =>
    split at h
    case isFalse => cases h; exact ⟨rfl, rfl⟩
    case isTrue =>
      split at h
      case isFalse => cases h; exact ⟨rfl, rfl⟩
      case isTrue =>
        split at h
        case isTrue => cases h
        case isFalse => cases h; exact ⟨rfl, rfl⟩

theorem BadCmd.pass {buf : Mem} {bufferLen : ℕ} (h : BadCmd buf bufferLen)
    (hnode : (cmdStruct (buf 0).toNat).isNodeCmd = true) :
    ∃ k, 0 < k ∧ vCmdUnpackOne buf bufferLen = some (k + announcedLen buf, []) := by
  cases h with
  | unknownId hunknown =>
      rw [hunknown] at hnode
      cases hnode
  | badShare _ hshares hnot =>
      refine ⟨headerSize buf + 1, Nat.succ_pos _, ?_⟩
      rw [vCmdUnpackOne_eq, cmdHead_badShare hnode hshares hnot]
  | @badLength g hhead hfixed hcount =>
      refine ⟨g.pos, ?_, ?_⟩
      · have htwo := (cmdHead_sound hhead).two_le
        omega
      · rw [vCmdUnpackOne_eq, hhead, ← (cmdHead_length hhead).2]
        simp only [g.unpack_fixed hfixed, hcount]

/-- The position is right for an unknown command at the end of the buffer only. -/
theorem BadCmd.pass_iff {buf : Mem} {bufferLen : ℕ} (h : BadCmd buf bufferLen)
    (htwo : 2 ≤ bufferLen) (hlt : bufferLen < 2 ^ 16) :
    vCmdUnpackOne buf bufferLen = some (announcedLen buf, []) ↔
      (cmdStruct (buf 0).toNat).isNodeCmd = false ∧ announcedLen buf = bufferLen ∧
        headerSize buf ≤ announcedLen buf := by
  have hheader : 2 ≤ headerSize buf ∧ headerSize buf ≤ 4 := by
    have hsize := vCmdUnpackLen_size (buf.shift 1)
    rw [headerSize]
    omega
  cases hnode : (cmdStruct (buf 0).toNat).isNodeCmd with
  | true =>
      obtain ⟨k, hk, hone⟩ := h.pass hnode
      rw [hone]
      simp only [Option.some.injEq, Prod.mk.injEq, and_true]
      constructor
      · intro heq
        omega
      · rintro ⟨hfalse, -⟩
        cases hfalse
  | false =>
      rw [vCmdUnpackOne_unknown hnode, sub32]
      split
      case isTrue hskip =>
        simp only [Option.some.injEq, Prod.mk.injEq, and_true]
        omega
      case isFalse hdrop =>
        simp only [Option.some.injEq, Prod.mk.injEq, and_true, true_and]
        omega

/-! ## The whole buffer -/

theorem SkippedExactly.of_pass {buf : Mem} {bufferLen : UInt16} {start : ℕ}
    (hstart : start + 2 ≤ bufferLen.toNat)
    (hpass : vCmdUnpackOne (buf.shift start) (bufferLen.toNat - start) =
      some (announcedLen (buf.shift start), []))
    (hlength : 0 < announcedLen (buf.shift start)) : SkippedExactly buf bufferLen start := by
  refine ⟨hpass, ?_⟩
  intro before after hbefore hafter hlen hholds hend hrest
  exact vCmdUnpack_between hbefore hafter hlen hstart hlength hend hholds hrest hpass

/-- **When a bad command is skipped exactly.**  Its id must be unknown, and it must be the
last command of the buffer, with its header inside its length. -/
theorem skippedExactly_iff (buf : Mem) (bufferLen : UInt16) {start : ℕ}
    (hstart : start + 2 ≤ bufferLen.toNat)
    (hbad : BadCmd (buf.shift start) (bufferLen.toNat - start)) :
    SkippedExactly buf bufferLen start ↔
      (cmdStruct (buf start).toNat).isNodeCmd = false ∧
        start + announcedLen (buf.shift start) = bufferLen.toNat ∧
        headerSize (buf.shift start) ≤ announcedLen (buf.shift start) := by
  have hlt := bufferLen.toNat_lt
  have hiff := hbad.pass_iff (by omega) (by omega)
  rw [shift_apply, Nat.add_zero] at hiff
  constructor
  · intro h
    obtain ⟨hnode, hend, hheader⟩ := hiff.mp h.pass
    exact ⟨hnode, by omega, hheader⟩
  · rintro ⟨hnode, hend, hheader⟩
    exact .of_pass hstart (hiff.mpr ⟨hnode, by omega, hheader⟩) (by omega)

theorem skippedExactly_last :
    SkippedExactly (ofBytes [33, 6, 0, 0, 0, 5, 1, 4, 7, 7]) 10 6 :=
  (skippedExactly_iff _ 10 (by decide) (.unknownId (by decide +kernel))).mpr
    (by decide +kernel)

/-- **A command that disappears.**  An unknown command of four bytes stands before a
`Node_Destroy` of node 5, which by itself is read.  The parser resumes two bytes too far,
finds an id and a length of zero there and drops the rest of the buffer.  The same happens
after a `Node_Link` with a share of three bytes and after a `Node_Destroy` of five bytes. -/
theorem vCmdUnpack_resumes_too_far :
    BadCmd (ofBytes [1, 4, 7, 7, 33, 6, 0, 0, 0, 5]) 10 ∧
      announcedLen (ofBytes [1, 4, 7, 7, 33, 6, 0, 0, 0, 5]) = 4 ∧
      vCmdUnpack (ofBytes [33, 6, 0, 0, 0, 5]) 6 = some (6, [⟨33, [5, 0, 0, 0], none⟩]) ∧
      vCmdUnpack (ofBytes [1, 4, 7, 7, 33, 6, 0, 0, 0, 5]) 10 = some (10, []) ∧
      vCmdUnpack (ofBytes [37, 11, 3, 0, 0, 0, 1, 0, 0, 0, 2, 33, 6, 0, 0, 0, 5]) 17 =
        some (17, []) ∧
      vCmdUnpack (ofBytes [33, 5, 0, 0, 0, 33, 6, 0, 0, 0, 5]) 11 = some (11, []) :=
  ⟨.unknownId (by decide +kernel), by decide +kernel, by decide +kernel, by decide +kernel,
    by decide +kernel, by decide +kernel⟩

end Verse
