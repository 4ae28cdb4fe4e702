import Verse.Resend.SenderRun
import Verse.Stream.StreamWindow

/-!
# How a packet is packed

`send_packet_in_OPEN_CLOSEREQ_state` behind the header, and `pack_prio_queue`.  The loops
go over the priorities and over the commands of a priority.  Between two calls of the
queue other threads may push commands, so that what the loops do is a step function:
`PacketSender.pass` is one pass of either loop, up to its next call of `v_out_queue_pop`.

`prio_win`, the part of the window that a priority gets, is computed with floating point
numbers from the weights; here it is any function of the priority and of `buffer_pos`.
-/

namespace Verse

open Lib

/-- The variables of `pack_prio_queue`. -/
structure PrioPacking where
  prio : UInt8
  win : UInt16
  sumLen : ℕ
  lastCmdCount : ℤ
  lastCmdId : ℕ
  totCmdSize : ℕ

/-- The variables of `send_packet_in_OPEN_CLOSEREQ_state`.  `head` are the header and the
system commands in the buffer, and `node` the node commands behind them.  `prios` are the
priorities that the loop has not come to, and `current` is `pack_prio_queue` at work. -/
structure Packing where
  prioWin : UInt8 → ℕ → UInt16
  head : List UInt8
  node : List UInt8
  bufferPos : ℕ
  sentSize : ℕ
  prios : List UInt8
  current : Option PrioPacking
  full : Bool

/-- The side of a `VDgramConn` that sends.  `shares` is whether addresses are shared
(`host_cmd_cmpr`), `closing` whether `host_state` is CLOSEREQ, and `packing` the packet
that is packed, if there is one. -/
structure PacketSender where
  mtu : UInt16
  shares : Bool
  s : VSender
  closing : Bool
  packing : Option Packing

/-- `FAKE_CMD_CONNECT_TERMINATE`. -/
def fakeCmdConnectTerminate : ℕ := 1

/-- `pack_prio_queue` is called. -/
def PrioPacking.start (prio : UInt8) (win : UInt16) : PrioPacking where
  prio := prio
  win := win
  sumLen := 0
  lastCmdCount := 0
  lastCmdId := cmdReservedId
  totCmdSize := 0

/-- `pack_prio_queue` returns; `buffer_pos` is a `uint16` outside. -/
def Packing.leave (k : Packing) (p : PrioPacking) : Packing :=
  { k with
    bufferPos := k.bufferPos % 2 ^ 16
    sentSize := addSize k.sentSize p.totCmdSize
    current := none }

/-- The priorities from the highest to the lowest. -/
def VOutQueue.packPrios (oq : VOutQueue) : List UInt8 := oq.prioRange.map UInt8.ofNat

/-! ## The loop over the commands of a priority -/

/-- The condition of the loop of `pack_prio_queue`. -/
def Packing.GoesOn (k : Packing) (mtu : UInt16) (oq : VOutQueue) (p : PrioPacking) : Prop :=
  oq.prioCount p.prio.toNat ≠ 0 ∧ p.sumLen < p.win.toNat ∧ k.bufferPos < mtu.toNat

instance (k : Packing) (mtu : UInt16) (oq : VOutQueue) (p : PrioPacking) :
    Decidable (k.GoesOn mtu oq p) :=
  inferInstanceAs (Decidable (_ ∧ _))

/-- `cmd_len`, the length that `v_out_queue_pop` is asked for. -/
def Packing.askedLen (k : Packing) (mtu : UInt16) (p : PrioPacking) : UInt16 :=
  UInt16.ofNat (min (p.win.toNat - p.sumLen) (mtu.toNat - k.bufferPos))

/-- With shared addresses a command begins a line of commands, or belongs to the line that
was begun. -/
def PrioPacking.begins (p : PrioPacking) (cmd : CmdPtr) : Prop :=
  cmd.id ≠ p.lastCmdId ∨ p.lastCmdCount ≤ 0

instance (p : PrioPacking) (cmd : CmdPtr) : Decidable (p.begins cmd) :=
  inferInstanceAs (Decidable (_ ∨ _))

/-- `cmd_len`, the length that is written before the command; 0 if there is none. -/
def PrioPacking.lineLen (shares : Bool) (p : PrioPacking) (cmd : CmdPtr) (plan : PopPlan) : ℕ :=
  if shares = false then vCmdSize cmd.cmd
  else if p.begins cmd then
    if plan.count = 0 then vCmdSize cmd.cmd
    else vCmdsLen cmd.cmd plan.count plan.share plan.len
  else 0

/-- The bytes of a command. -/
def PrioPacking.bytes (shares : Bool) (p : PrioPacking) (cmd : CmdPtr) (plan : PopPlan) :
    Option (List UInt8) :=
  vCmdPack cmd.cmd (p.lineLen shares cmd plan) (if shares then plan.share else 0)

/-- The variables after a command was packed. -/
def PrioPacking.next (shares : Bool) (p : PrioPacking) (cmd : CmdPtr) (plan : PopPlan) :
    PrioPacking :=
  let p := { p with totCmdSize := addSize p.totCmdSize (vCmdSize cmd.cmd) }
  if shares = true ∧ p.begins cmd then
    { p with
      sumLen := (p.sumLen + p.lineLen shares cmd plan) % 2 ^ 16
      lastCmdCount := plan.count - 1
      lastCmdId := cmd.id }
  else { p with lastCmdCount := p.lastCmdCount - 1, lastCmdId := cmd.id }

/-- One pass of the loop of `pack_prio_queue`, when its condition holds. -/
def PacketSender.passCmd (q : PacketSender) (k : Packing) (p : PrioPacking) :
    Option PacketSender :=
  match vOutQueuePop q.s.outQueue p.prio.toNat (k.askedLen q.mtu p).toNat with
  | none => none
  | some (oq, none) =>
      some { q with s := { q.s with outQueue := oq }, packing := some (k.leave p) }
  | some (oq, some (cmd, plan)) =>
      -- fake commands are carried out and destroyed
      if cmd.id < minCmdId then
        some
          { q with
            s := { q.s with outQueue := oq }
            closing := q.closing || cmd.id == fakeCmdConnectTerminate
            packing := some { k with current := some p } }
      else if k.bufferPos + vCmdSize cmd.cmd < q.mtu.toNat then
        match p.bytes q.shares cmd plan,
          vPacketHistoryAddCmd q.s.history (q.s.history.packets.length - 1) cmd p.prio.toNat with
        | some bytes, some (history, _) =>
            some
              { q with
                s := { q.s with outQueue := oq, history := history }
                packing := some
                  { k with
                    node := k.node ++ bytes
                    bufferPos := k.bufferPos + bytes.length
                    current := some (p.next q.shares cmd plan) } }
        | _, _ => none
      else
        -- there is not enough space
        match vOutQueuePushHead oq p.prio.toNat cmd with
        | none => none
        | some (oq, _, _) =>
            some { q with s := { q.s with outQueue := oq }, packing := some (k.leave p) }

/-! ## The loop over the priorities -/

/-- The next priority. -/
def Packing.nextPrio (k : Packing) (mtu : UInt16) (oq : VOutQueue) : Packing :=
  match k.prios with
  | [] => k
  | prio :: rest =>
      if prio.toNat ≤ vrsDefaultPriority ∧ mtu.toNat ≤ k.bufferPos then
        { k with prios := [], full := true }
      else if oq.prioCount prio.toNat = 0 then { k with prios := rest }
      else
        { k with prios := rest, current := some (.start prio (k.prioWin prio k.bufferPos)) }

/-- One pass of either loop. -/
def PacketSender.pass (q : PacketSender) : Option PacketSender :=
  match q.packing with
  | none => some q
  | some k =>
      match k.current with
      | none => some { q with packing := some (k.nextPrio q.mtu q.s.outQueue) }
      | some p =>
          if k.GoesOn q.mtu q.s.outQueue p then q.passCmd k p
          else some { q with packing := some (k.leave p) }

/-- Both loops are done. -/
def Packing.Done (k : Packing) : Prop := k.current = none ∧ k.prios = []

instance (k : Packing) : Decidable k.Done :=
  match hcurrent : k.current, hprios : k.prios with
  | none, [] => isTrue ⟨hcurrent, hprios⟩
  | some _, _ => isFalse fun h => by simp [h.1] at hcurrent
  | none, _ :: _ => isFalse fun h => by simp [h.2] at hprios

/-- The size of the commands that were packed so far. -/
def Packing.tot (k : Packing) : ℕ := addSize k.sentSize (k.current.elim 0 PrioPacking.totCmdSize)

/-- What `v_send_packet` sends. -/
def Packing.datagram (k : Packing) : List UInt8 := (k.head ++ k.node).take k.bufferPos

/-! ## How long commands are -/

variable {cmd : GenericCmd}

theorem length_packItem {item : CmdItem} (htype : item.type ≠ .string8) :
    (packItem cmd item).length = item.type.dataWidth := by
  obtain ⟨type, offset, size⟩ := item
  cases type
  case string8 => exact absurd rfl htype
  all_goals rfl

theorem length_flatMap_packItem {items : List CmdItem} (h : ∀ item ∈ items, item.type ≠ .string8) :
    (items.flatMap (packItem cmd)).length = widthSum items := by
  induction items with
  | nil => rfl
  | cons item rest ih =>
      have hrest := ih fun i hi => h i (by simp [hi])
      rw [List.flatMap_cons, List.length_append, length_packItem (h item (by simp)), hrest]
      simp [widthSum]

/-- A part of the items takes no more than all of them. -/
theorem length_packItems_le (skip : ℕ) :
    (packItems cmd skip).length ≤ (packItems cmd 0).length := by
  rw [packItems, packItems, List.drop_zero]
  exact ((List.drop_sublist _ _).flatMap _).length_le

/-- The items of a command take what is left of its size without a header. -/
theorem length_packItems (hbuilt : cmd.Built) :
    (packItems cmd 0).length + (if cmd.layout.sharesAddr then 3 else 2) ≤ vCmdSize cmd := by
  have hsound : cmd.layout.Sound := cmdStruct_sound hbuilt.isNode
  have htake : cmd.layout.items.take cmd.layout.itemCount = cmd.layout.items := by
    rw [← hsound.count, List.take_length]
  rw [packItems, List.drop_zero, htake]
  cases hvar : cmd.layout.varLen with
  | false =>
      have hsize : vCmdSize cmd = cmd.layout.cmdSize := by
        simp [vCmdSize, hbuilt.isNode, hvar]
      have hwidth : widthSum cmd.layout.items = cmd.layout.size := hsound.fixedSize hvar
      rw [length_flatMap_packItem (hsound.noString hvar), hsize, hsound.cmdSize hvar, hwidth]
  | true =>
      have hlayout : cmd.layout = tagSetString8 := cmdStruct_varLen hvar
      have hwire := wire_string_length (hbuilt.string hvar)
      have hshares : tagSetString8.sharesAddr = true := rfl
      rw [wire] at hwire
      rw [vCmdSize_string hlayout, hlayout, hwire, hshares, if_pos rfl]
      omega

/-- **What `v_cmd_pack` writes**: the length field may take two bytes more than
`v_cmd_size` says. -/
theorem length_vCmdPack_le (hbuilt : cmd.Built) {length share : ℕ} {bytes : List UInt8}
    (hpack : vCmdPack cmd length share = some bytes) : bytes.length ≤ vCmdSize cmd + 2 := by
  have hitems := length_packItems hbuilt
  have hlen := length_vCmdPackLen length
  unfold vCmdPack at hpack
  dsimp only at hpack
  split at hpack
  · obtain rfl := Option.some.inj hpack
    simp only [List.length_append, vnpRawPackUint8, List.length_singleton]
    split at hitems <;> split at hlen <;> simp_all <;> omega
  · split at hpack
    · split at hpack
      · obtain rfl := Option.some.inj hpack
        have hskip := @length_packItems_le cmd (sharedItems share cmd.layout.keyItems 0).2
        omega
      · cases hpack
    · obtain rfl := Option.some.inj hpack
      omega

/-! ## The position in the buffer -/

/-- `buffer_pos` is where the next command goes.  Behind a command it is at most one byte
behind the MTU. -/
structure Packing.Fits (k : Packing) (mtu : UInt16) : Prop where
  pos : k.bufferPos = k.head.length + k.node.length
  le : k.node ≠ [] → k.bufferPos ≤ mtu.toNat + 1

variable {k : Packing} {mtu : UInt16} {p : PrioPacking}

theorem Packing.Fits.lt (h : k.Fits mtu) (hhead : k.head.length < 2 ^ 16)
    (hmtu : mtu.toNat + 1 < 2 ^ 16) : k.bufferPos < 2 ^ 16 := by
  by_cases hnode : k.node = []
  · rw [h.pos, hnode]
    exact hhead
  · exact lt_of_le_of_lt (h.le hnode) hmtu

/-- The whole buffer is sent. -/
theorem Packing.Fits.datagram (h : k.Fits mtu) : k.datagram = k.head ++ k.node := by
  rw [Packing.datagram, h.pos, ← List.length_append, List.take_length]

theorem Packing.Fits.leave (h : k.Fits mtu) (hhead : k.head.length < 2 ^ 16)
    (hmtu : mtu.toNat + 1 < 2 ^ 16) (p : PrioPacking) : (k.leave p).Fits mtu := by
  have hmod : k.bufferPos % 2 ^ 16 = k.bufferPos := Nat.mod_eq_of_lt (h.lt hhead hmtu)
  refine ⟨?_, fun hnode => ?_⟩
  · simp only [Packing.leave, hmod]
    exact h.pos
  · simp only [Packing.leave, hmod]
    exact h.le hnode

/-- A command goes into the buffer. -/
theorem Packing.Fits.put (h : k.Fits mtu) (hbuilt : cmd.Built)
    (hroom : k.bufferPos + vCmdSize cmd < mtu.toNat) {length share : ℕ} {bytes : List UInt8}
    (hpack : vCmdPack cmd length share = some bytes) (current : Option PrioPacking) :
    Packing.Fits
      { k with
        node := k.node ++ bytes
        bufferPos := k.bufferPos + bytes.length
        current := current } mtu := by
  have hlength := length_vCmdPack_le hbuilt hpack
  refine ⟨?_, fun _ => ?_⟩
  · simp only [h.pos, List.length_append]
    omega
  · simp only
    omega

theorem Packing.Fits.nextPrio (h : k.Fits mtu) (oq : VOutQueue) : (k.nextPrio mtu oq).Fits mtu := by
  unfold Packing.nextPrio
  split
  · exact h
  · split
    · exact ⟨h.pos, h.le⟩
    split
    · exact ⟨h.pos, h.le⟩
    · exact ⟨h.pos, h.le⟩

/-! ## What a pass of the outer loop leaves alone -/

theorem Packing.nextPrio_frame (mtu : UInt16) (oq : VOutQueue) (hcurrent : k.current = none) :
    (k.nextPrio mtu oq).head = k.head ∧ (k.nextPrio mtu oq).node = k.node ∧
      (k.nextPrio mtu oq).sentSize = k.sentSize ∧ (k.nextPrio mtu oq).tot = k.tot := by
  unfold Packing.nextPrio
  split
  · exact ⟨rfl, rfl, rfl, rfl⟩
  · split
    · exact ⟨rfl, rfl, rfl, rfl⟩
    split
    · exact ⟨rfl, rfl, rfl, rfl⟩
    · refine ⟨rfl, rfl, rfl, ?_⟩
      simp only [Packing.tot, hcurrent, Option.elim_some, Option.elim_none]
      rfl

theorem Packing.leave_tot (hcurrent : k.current = some p) : (k.leave p).tot = k.tot := by
  simp only [Packing.tot, Packing.leave, hcurrent, Option.elim_some, Option.elim_none, addSize,
    Nat.add_zero, Nat.mod_mod]

end Verse
