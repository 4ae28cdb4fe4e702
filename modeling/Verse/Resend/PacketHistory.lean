import Verse.Queues.HashArray

/-!
# The history of sent packets

The first half of `v_history.c`.  Every payload packet that was not acknowledged
yet has an entry with the list of its commands, and the commands stand in hashed
lists, one for each command id.  A sent command points to its bucket, and the
bucket points back; when a newer version of a command is sent, the pointer of the
older one is set to `NULL`.

Sent commands live in a heap.  The pointer to a packet is its position in the
list.  Memory is always found.
-/

namespace Verse

open Lib

/-- `VSent_Command` without its links. -/
structure VSentCommand where
  id : ℕ
  prio : ℕ
  vbucket : Option ℕ
  deriving DecidableEq, Repr

/-- `VSent_Packet`; the time of sending is left out. -/
structure VSentPacket where
  id : ℕ
  cmds : List ℕ
  deriving DecidableEq, Repr

/-- `VPacket_History`: the packets, the hashed lists, and the memory of the sent
commands. -/
structure VPacketHistory where
  packets : List VSentPacket
  table : CmdTable
  sheap : ℕ → Option VSentCommand
  next : ℕ

/-- `v_packet_history_init`. -/
def vPacketHistoryInit : VPacketHistory := ⟨[], .init, fun _ => none, 0⟩

/-- `v_packet_history_find_packet`. -/
def vPacketHistoryFindPacket (history : VPacketHistory) (id : ℕ) : Option ℕ :=
  history.packets.findIdx? fun packet => packet.id = id

/-- `v_packet_history_add_packet`; the new packet is the last one. -/
def vPacketHistoryAddPacket (history : VPacketHistory) (id : ℕ) : VPacketHistory :=
  { history with packets := history.packets ++ [⟨id, []⟩] }

/-- The second half of `v_packet_history_add_cmd`: the bucket and the sent command
are made. -/
def VPacketHistory.store (history : VPacketHistory) (q : VCommandQueue) (sentPacket : ℕ)
    (cmd : CmdPtr) (prio : ℕ) : Option VPacketHistory :=
  match vHashArrayAddItem history.table q cmd with
  | none => none
  | some (table, a) =>
      some
        { packets := history.packets.modify sentPacket fun packet =>
            { packet with cmds := packet.cmds ++ [history.next] }
          table := table.write a ⟨cmd, some history.next⟩
          sheap := Function.update history.sheap history.next (some ⟨cmd.id, prio, some a⟩)
          next := history.next + 1 }

/-- `v_packet_history_add_cmd`.  Besides the history the result says which command
became obsolete. -/
def vPacketHistoryAddCmd (history : VPacketHistory) (sentPacket : ℕ) (cmd : CmdPtr) (prio : ℕ) :
    Option (VPacketHistory × Option CmdPtr) :=
  match vCmdQueueCreate cmd.id false with
  | none => none
  | some q =>
      let found := if q.removeHashDups then vHashArrayFindItem history.table q cmd.cmd
        else some none
      match found with
      | none => none
      | some none => (history.store q sentPacket cmd prio).map (·, none)
      | some (some a) =>
          match history.table.heap a with
          | none => none
          | some b =>
              match b.ptr with
              | none => none
              | some sa =>
                  match history.sheap sa, vHashArrayRemoveItem history.table q b.data.cmd with
                  | some obsolete, some (table, _) =>
                      (VPacketHistory.store
                        { history with
                          table := table
                          sheap := Function.update history.sheap sa
                            (some { obsolete with vbucket := none }) } q sentPacket cmd prio).map
                        (·, some b.data)
                  | _, _ => none

/-- The loop of `v_packet_history_rem_packet`: the commands that are not obsolete
leave the hashed lists.  The result is the history, `sent_size` and the commands
that were destroyed; on the server a fake command is made for each of them
(`vCmdFakeAck`). -/
def remCmds (history : VPacketHistory) (sentSize : ℕ) :
    List ℕ → Option (VPacketHistory × ℕ × List CmdPtr)
  | [] => some (history, sentSize, [])
  | sa :: rest =>
      match history.sheap sa with
      | none => none
      | some sentCmd =>
          match sentCmd.vbucket with
          | none => remCmds history sentSize rest
          | some a =>
              match history.table.heap a with
              | none => none
              | some b =>
                  match vCmdQueueCreate b.data.id false with
                  | none => none
                  | some q =>
                      match vHashArrayRemoveItem history.table q b.data.cmd with
                      | none => none
                      | some (table, _) =>
                          (remCmds { history with table := table }
                            (sub32 sentSize (vCmdSize b.data.cmd)) rest).map
                            fun (history, sentSize, cmds) => (history, sentSize, b.data :: cmds)

/-- The memory of sent commands is freed. -/
def freeAll (sheap : ℕ → Option VSentCommand) (cmds : List ℕ) : ℕ → Option VSentCommand :=
  fun a => if a ∈ cmds then none else sheap a

/-- `v_packet_history_rem_packet`. -/
def vPacketHistoryRemPacket (history : VPacketHistory) (sentSize id : ℕ) :
    Option (VPacketHistory × ℕ × List CmdPtr) :=
  match vPacketHistoryFindPacket history id with
  | none => some (history, sentSize, [])
  | some i =>
      match history.packets[i]? with
      | none => none
      | some packet =>
          (remCmds history sentSize packet.cmds).map fun (history, sentSize, cmds) =>
            ({ history with
              packets := history.packets.eraseIdx i
              sheap := freeAll history.sheap packet.cmds }, sentSize, cmds)

/-- A `uint16` or `uint32` read from the data of a command. -/
def dataBytes (cmd : GenericCmd) (offset size : ℕ) : List UInt8 := slice cmd.data offset size

/-- `v_cmd_fake_ack`: the fake command that tells the server that the peer knows
about a created or destroyed entity.  The structures come from `calloc`, so the
bytes between their fields are 0. -/
def vCmdFakeAck (cmd : GenericCmd) : Option GenericCmd :=
  match cmd.id.toNat with
  | 32 => some ⟨16, [0, 0, 0] ++ dataBytes cmd 6 4, none⟩
  | 33 => some ⟨17, [0, 0, 0] ++ dataBytes cmd 0 4, none⟩
  | 64 => some ⟨18, [0, 0, 0] ++ dataBytes cmd 0 4 ++ dataBytes cmd 4 2 ++ [0, 0], none⟩
  | 65 => some ⟨19, [0, 0, 0] ++ dataBytes cmd 0 4 ++ dataBytes cmd 4 2 ++ [0, 0], none⟩
  | 68 => some ⟨20, [0, 0, 0] ++ dataBytes cmd 0 4 ++ dataBytes cmd 4 2 ++ dataBytes cmd 6 2, none⟩
  | 69 => some ⟨21, [0, 0, 0] ++ dataBytes cmd 0 4 ++ dataBytes cmd 4 2 ++ dataBytes cmd 6 2, none⟩
  | 128 => some ⟨22, [0, 0, 0] ++ dataBytes cmd 0 4 ++ dataBytes cmd 6 2 ++ [0, 0], none⟩
  | 129 => some ⟨23, [0, 0, 0] ++ dataBytes cmd 0 4 ++ dataBytes cmd 4 2 ++ [0, 0], none⟩
  | _ => none

end Verse
