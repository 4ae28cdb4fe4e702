import Mathlib.Algebra.Order.Floor.Ring
import Mathlib.Data.Rat.Floor
import Verse.Queues.OutQueueGroupRun
import Verse.Queues.OutQueueWeights
import Verse.Stream.Framing

/-!
# The window of a stream message

`v_STREAM_pack_message` takes commands from the outgoing queue until the room in the socket
buffer is used up.  The room is split over the priorities by their weights, and the loop of a
priority asks `v_out_queue_pop` for commands that fit into what is left of its window.

All this is done with 16-bit numbers.  As long as every command that is handed out fits into
the length that was asked for, what is left of a window never wraps, and the message stays
within the room.  `v_out_queue_pop` hands out commands that do not fit: the length 0 is no
limit for a group, `v_cmd_count` wraps when there is no room for a header, and a long string is
packed with two more bytes than it is said to take.

The functions of `Session` that change the session for a command that was popped are not
repeated here.
-/

namespace Verse

open Lib

/-! ## The loop over the commands -/

/-- The conversion of `((swin - buffer_pos) * r_prio) / prio_sum` to `uint16`, which is not
defined for a number that does not fit. -/
def prioWin (room : ℤ) (r sum : ℚ) : Option ℕ :=
  if sum = 0 ∨ room * r / sum ≤ -1 ∨ 2 ^ 16 ≤ room * r / sum then none
  else some ⌊room * r / sum⌋.toNat

/-- The bytes of a command that is packed by itself. -/
def packedAlone (cmd : GenericCmd) : List UInt8 := (vCmdPack cmd (vCmdSize cmd) 0).getD []

/-- The variables of `v_STREAM_pack_message`: the queue, `buffer_pos`, the node commands in the
buffer, and what was popped. -/
structure StreamBuffer where
  oq : VOutQueue
  pos : ℕ
  node : List UInt8
  popped : List CmdPtr

/-- A command that was popped; a fake command is not packed. -/
def StreamBuffer.take (s : StreamBuffer) (oq : VOutQueue) (cmd : CmdPtr) : StreamBuffer :=
  if cmd.id < minCmdId then { s with oq := oq, popped := s.popped ++ [cmd] }
  else
    { oq := oq
      pos := s.pos + (packedAlone cmd.cmd).length % 2 ^ 16
      node := s.node ++ packedAlone cmd.cmd
      popped := s.popped ++ [cmd] }

/-- The priorities the loop goes over, from the highest to the lowest. -/
def VOutQueue.prioRange (oq : VOutQueue) : List ℕ :=
  (List.range' oq.minPrio (oq.maxPrio + 1 - oq.minPrio)).reverse

/-- The bytes of the message, its header included, and the length that the header says. -/
structure StreamBytes where
  bytes : List UInt8
  node : List UInt8
  len : ℕ
  popped : List CmdPtr
  deriving DecidableEq

/-- The variables before the loop over the priorities. -/
def StreamBuffer.start (oq : VOutQueue) (sysBytes : List UInt8) : StreamBuffer :=
  ⟨oq, verseMessageHeaderSize + sysBytes.length, [], []⟩

/-- The message stays within the buffer and within the room of the socket. -/
structure StreamBytes.Within (m : StreamBytes) (room : ℤ) : Prop where
  buffer : m.bytes.length ≤ maxPacketSize
  room : m.node.length ≤ room
  len : m.len = m.bytes.length

/-! ## When the window is kept -/

/-- A command that may be handed out for `len` takes no more than that.  For a group the length 0
is no limit, and for a length below that of the group one command at least is counted by
`v_cmd_count`. -/
def CmdFits (cmd : GenericCmd) (group : Option OutGroup) (len : ℕ) : Prop :=
  match group with
  | none => vCmdSize cmd ≤ len → (packedAlone cmd).length ≤ len
  | some g =>
      len ≠ 0 ∧
        (len < g.len → vCmdCount cmd len g.share ≠ 0 → g.counter ≠ 0 →
          (packedAlone cmd).length ≤ len) ∧
        (g.len ≤ len → (packedAlone cmd).length ≤ len)

/-- What is handed out fits. -/
theorem CmdFits.length_le {cmd : GenericCmd} {group : Option OutGroup} {len : ℕ}
    (h : CmdFits cmd group len) (hpop : (popPlan cmd group len).canPop = true) :
    (packedAlone cmd).length ≤ len := by
  cases group with
  | none => exact h (of_decide_eq_true hpop)
  | some g =>
      obtain ⟨hne, hcount, hall⟩ := h
      unfold popPlan at hpop
      dsimp only at hpop
      split at hpop
      case isTrue hlt =>
        have hsome := of_decide_eq_true hpop
        refine hcount hlt.2 (fun hzero => hsome ?_) fun hzero => hsome ?_
        · rw [hzero, if_neg (Nat.not_lt_zero _)]
        · rw [hzero]
          split <;> omega
      case isFalse hle => exact hall (by omega)

end Verse
