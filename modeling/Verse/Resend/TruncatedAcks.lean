import Verse.History.Compression
import Verse.Packets.SysRoundTrip
import Verse.Resend.SysCmdArray

/-!
# Acknowledgement lists that do not fit

At most `MAX_SYSTEM_COMMAND_COUNT` entries of the history of ACK and NAK commands
are sent, but the parser of the peer stores one command less, so the last entry of a
full list is lost.  What the peer acknowledges or resends is still sound; its
`ank_id` however is set by the last command only if that is an ACK.

`truncatedAcks_iff` says for which histories `ank_id` becomes the id of the last ACK
that was sent.

## Strategy

What is read back are the first entries of the array (`readSysCmds`), and they stand
for a part of its marks (`ackNakIds_take_subset`).  ACK and NAK alternate in the
array, so the kind of the entries at the cut follows from that of the first one.
-/

namespace Verse

open Lib

/-- The payload ids that stand in the array `sys_cmd` of `r_packet`, also behind the
terminator.  Of its entry `MAX_SYSTEM_COMMAND_COUNT - 1` nothing but the id of the
command is ever written. -/
structure RSysCmds where
  payId : ℕ → ℕ
  last_zero : payId (maxSystemCommandCount - 1) = 0

/-- The ACK and NAK commands at the beginning of the received system commands. -/
def leadingAckNaks : List SysCmd → List AckNakCmd
  | .ackNak id payId :: rest => (id, payId.toNat) :: leadingAckNaks rest
  | _ => []

/-- The packets that `handle_ack_nak_commands` acknowledges or resends. -/
def handledMarks (cmds : List SysCmd) (r : RSysCmds) : List AckNakCmd :=
  ackNakIds (leadingAckNaks cmds) (r.payId (leadingAckNaks cmds).length)

/-- `ank_id` behind a sequence of ACK and NAK commands. -/
def ankIdAfter (entries : List AckNakCmd) (ankId : ℕ) : ℕ :=
  match entries.getLast? with
  | some (.ack, payId) => payId
  | _ => ankId

/-- `ank_id` after `handle_ack_nak_commands`. -/
def handledAnkId (cmds : List SysCmd) (ankId : ℕ) : ℕ := ankIdAfter (leadingAckNaks cmds) ankId

/-- The id of the last ACK entry of a list. -/
def lastAck (entries : List AckNakCmd) : Option ℕ :=
  (entries.filter fun entry => entry.1 = .ack).getLast?.map Prod.snd

/-- The packet `c` sends is received by the peer, behind any header and before any
node commands: every packet that the peer acknowledges was received, every one that
it resends was skipped, and `ank_id` becomes the id of the last ACK entry sent. -/
def SendConn.Acknowledges (c : SendConn) (pay : Bool) (marks : List AckNakCmd) : Prop :=
  ∀ (sysCmds : List SysCmd) (header : VPacketHeader) (nodeBytes bytes : List UInt8) (buf : Mem)
    (bufferLen : UInt16) (r : RSysCmds),
    sysCmds ∈ (c.send pay).2 → (∀ b ∈ nodeBytes.head?, maxSysCmdId < b) →
    datagram header sysCmds nodeBytes = some bytes → Holds buf bytes →
    bufferLen.toNat = bytes.length →
    ∃ pos cmds, vUnpackPacketSystemCommands buf bufferLen = some (pos, cmds) ∧
      (∀ mark ∈ handledMarks cmds r, mark ∈ marks) ∧
      ∀ id ∈ lastAck (c.ackNak.take maxSystemCommandCount), ∀ ankId, handledAnkId cmds ankId = id

/-! ## The shape of the array -/

variable {cmds marks : List AckNakCmd} {last : ℕ}

/-- Neighbours are of different kinds, but for the last two. -/
theorem Alternates.ne_next (h : Alternates cmds) {i : ℕ} (hi : i + 2 < cmds.length)
    {a b : AckNakCmd} (ha : cmds[i]? = some a) (hb : cmds[i + 1]? = some b) : a.1 ≠ b.1 := by
  induction cmds generalizing i with
  | nil => simp at ha
  | cons first rest ih =>
      match i, rest, h with
      | 0, _ :: [], _ => simp at hi
      | 0, second :: third :: rest, h =>
          simp only [List.getElem?_cons_zero, List.getElem?_cons_succ, Option.some.injEq] at ha hb
          rw [← ha, ← hb]
          exact h.2.1
      | i + 1, rest, h =>
          rw [List.length_cons] at hi
          exact @ih h.tail i (by omega) (by simpa using ha) (by simpa using hb)

/-- Every second entry is of the same kind. -/
theorem Alternates.same_kind (h : Alternates cmds) (k : ℕ) (hk : 2 * k + 1 < cmds.length)
    {a b : AckNakCmd} (ha : cmds[0]? = some a) (hb : cmds[2 * k]? = some b) : a.1 = b.1 := by
  induction k generalizing b with
  | zero =>
      rw [Nat.mul_zero, ha] at hb
      rw [Option.some.inj hb]
  | succ k ih =>
      obtain ⟨x, hx⟩ : ∃ x, cmds[2 * k]? = some x := ⟨_, List.getElem?_eq_getElem (by omega)⟩
      obtain ⟨y, hy⟩ : ∃ y, cmds[2 * k + 1]? = some y := ⟨_, List.getElem?_eq_getElem (by omega)⟩
      have hax := ih (by omega) hx
      have hxy := h.ne_next (by omega) hx hy
      have hyb := h.ne_next (i := 2 * k + 1) (by omega) hy hb
      rw [hax]
      revert hxy hyb
      cases x.1 <;> cases y.1 <;> cases b.1 <;> simp

/-- The first entries stand for a part of the marks. -/
theorem ackNakIds_subset_spans {stop stale : ℕ} (hentries : cmds.Pairwise fun a b => a.2 < b.2)
    (hstop : ∀ cmd ∈ cmds.getLast?, cmd.2 < stop) (hstale : stale ≤ stop) :
    ∀ mark ∈ ackNakIds cmds stale, mark ∈ spans cmds stop := by
  induction cmds with
  | nil => simp [ackNakIds]
  | cons cmd rest ih =>
      cases rest with
      | nil =>
          have hlt := hstop cmd (by simp)
          obtain ⟨kind, id⟩ := cmd
          rintro ⟨kind', n⟩ hmark
          rw [spans_singleton]
          cases kind with
          | ack =>
              obtain ⟨rfl, rfl⟩ := Prod.mk.inj (List.mem_singleton.mp hmark)
              exact Lib.mem_span.mpr ⟨rfl, Nat.le_refl _, hlt⟩
          | nak =>
              obtain ⟨rfl, hlow, hhigh⟩ := Lib.mem_span.mp hmark
              exact Lib.mem_span.mpr ⟨rfl, hlow, Nat.lt_of_lt_of_le hhigh hstale⟩
      | cons next rest =>
          intro mark hmark
          rw [ackNakIds, List.mem_append] at hmark
          rw [spans_cons_cons, List.mem_append]
          exact hmark.imp_right
            (ih hentries.of_cons (fun c hc => hstop c (by simpa using hc)) mark)

/-! ## What is read back -/

theorem toSysCmd_built (cmd : AckNakCmd) : (AckNakCmd.toSysCmd cmd).Built := trivial

theorem toSysCmd_readBack (cmd : AckNakCmd) :
    (AckNakCmd.toSysCmd cmd).readBack = AckNakCmd.toSysCmd cmd := rfl

theorem SendConn.fpsCmd_cases (c : SendConn) :
    c.fpsCmd = [] ∨ ∃ id fps, c.fpsCmd = [.negotiate ⟨id, .fps [fps]⟩] := by
  cases hfps : c.fps with
  | none => exact Or.inl (by simp [SendConn.fpsCmd, hfps])
  | some fps => exact Or.inr ⟨fps.1, fps.2, by simp [SendConn.fpsCmd, hfps, vAddNegotiateCmd]⟩

theorem leadingAckNaks_append {entries : List AckNakCmd} (hbound : ∀ cmd ∈ entries, cmd.2 < 2 ^ 32)
    (tail : List SysCmd) :
    leadingAckNaks (entries.map AckNakCmd.toSysCmd ++ tail) = entries ++ leadingAckNaks tail := by
  induction entries with
  | nil => rfl
  | cons cmd rest ih =>
      have hid : (UInt32.ofNat cmd.2).toNat = cmd.2 :=
        UInt32.toNat_ofNat_of_lt (hbound cmd (by simp))
      simp only [List.map_cons, List.cons_append, AckNakCmd.toSysCmd, leadingAckNaks, hid]
      rw [← ih fun c hc => hbound c (by simp [hc])]

/-- The parser stores at most `MAX_SYSTEM_COMMAND_COUNT - 1` commands. -/
theorem readSysCmds {header : VPacketHeader} {sysCmds : List SysCmd} {nodeBytes bytes : List UInt8}
    {buf : Mem} {bufferLen : UInt16} (hcount : sysCmds.length ≤ maxSystemCommandCount)
    (hbuilt : ∀ cmd ∈ sysCmds, cmd.Built) (hnode : ∀ b ∈ nodeBytes.head?, maxSysCmdId < b)
    (hbytes : datagram header sysCmds nodeBytes = some bytes) (hholds : Holds buf bytes)
    (hlen : bufferLen.toNat = bytes.length) :
    ∃ pos, vUnpackPacketSystemCommands buf bufferLen =
      some (pos, (sysCmds.take (maxSystemCommandCount - 1)).map SysCmd.readBack) := by
  rw [datagram, vPackDgramSystemCommands_built hcount hbuilt, Option.map_some,
    Option.some.injEq] at hbytes
  subst hbytes
  rw [List.length_append, List.length_append, length_vPackPacketHeader] at hlen
  rcases Nat.lt_or_ge sysCmds.length maxSystemCommandCount with hlt | hge
  · rw [List.take_of_length_le (Nat.le_sub_one_of_lt hlt)]
    exact ⟨_, vUnpackPacketSystemCommands_pack hlt hbuilt hnode hlen hholds⟩
  · -- the last command is left in the buffer
    have hfirst : (sysCmds.take (maxSystemCommandCount - 1)).length = maxSystemCommandCount - 1 := by
      rw [List.length_take]
      omega
    have hsplit : sysCmds.flatMap SysCmd.bytes =
        (sysCmds.take (maxSystemCommandCount - 1)).flatMap SysCmd.bytes ++
          (sysCmds.drop (maxSystemCommandCount - 1)).flatMap SysCmd.bytes := by
      rw [← List.flatMap_append, List.take_append_drop]
    rw [hsplit] at hholds hlen
    rw [List.append_assoc, List.append_assoc, ← List.append_assoc (vPackPacketHeader _)] at hholds
    refine ⟨_, vUnpackPacketSystemCommands_full hfirst
      (fun cmd hcmd => hbuilt cmd (List.mem_of_mem_take hcmd)) ?_ hholds⟩
    rw [List.length_append] at hlen ⊢
    omega

variable {c : SendConn} {pay : Bool}

/-- The commands of a packet that acknowledges. -/
def SendConn.ackCmds (c : SendConn) : List SysCmd :=
  ackNakSysCmds c.ackNak ++ if c.ackNak.length < maxSystemCommandCount then c.fpsCmd else []

theorem SendConn.ackCmds_built (c : SendConn) : ∀ cmd ∈ c.ackCmds, cmd.Built := by
  intro cmd hcmd
  rcases List.mem_append.mp hcmd with hcmd | hcmd
  · obtain ⟨entry, -, rfl⟩ := List.mem_map.mp hcmd
    exact toSysCmd_built entry
  · split at hcmd
    · rcases c.fpsCmd_cases with hnil | ⟨id, fps, hfps⟩
      · simp [hnil] at hcmd
      · rw [hfps, List.mem_singleton] at hcmd
        subst hcmd
        simp [SysCmd.Built, Preference.Built, maxFtrValueCount]
    · cases hcmd

theorem SendConn.length_ackCmds_le (c : SendConn) : c.ackCmds.length ≤ maxSystemCommandCount := by
  have hlen := length_ackNakSysCmds c.ackNak
  rw [SendConn.ackCmds, List.length_append]
  split
  · rcases c.fpsCmd_cases with hnil | ⟨id, fps, hfps⟩
    · rw [hnil, List.length_nil]
      omega
    · rw [hfps, List.length_singleton]
      omega
  · rw [List.length_nil]
    omega

/-- **The first entries of the history are read back.** -/
theorem SendConn.leadingAckNaks_read (c : SendConn) (hbound : ∀ cmd ∈ c.ackNak, cmd.2 < 2 ^ 32) :
    leadingAckNaks ((c.ackCmds.take (maxSystemCommandCount - 1)).map SysCmd.readBack) =
      c.ackNak.take (maxSystemCommandCount - 1) := by
  have htail : ∀ n, leadingAckNaks
      (((if c.ackNak.length < maxSystemCommandCount then c.fpsCmd else []).take n).map
        SysCmd.readBack) = [] := by
    intro n
    split
    · rcases c.fpsCmd_cases with hnil | ⟨id, fps, hfps⟩
      · simp [hnil, leadingAckNaks]
      · rw [hfps]
        cases n <;> simp [leadingAckNaks, SysCmd.readBack]
    · simp [leadingAckNaks]
  have htake : (ackNakSysCmds c.ackNak).take (maxSystemCommandCount - 1) =
      (c.ackNak.take (maxSystemCommandCount - 1)).map AckNakCmd.toSysCmd := by
    rw [ackNakSysCmds, ← List.map_take, List.take_take]
    rfl
  have hback : ((c.ackNak.take (maxSystemCommandCount - 1)).map AckNakCmd.toSysCmd).map
      SysCmd.readBack = (c.ackNak.take (maxSystemCommandCount - 1)).map AckNakCmd.toSysCmd := by
    rw [List.map_map]
    exact List.map_congr_left fun cmd _ => toSysCmd_readBack cmd
  rw [SendConn.ackCmds, List.take_append, List.map_append, htake, hback,
    leadingAckNaks_append fun cmd hcmd => hbound cmd (List.mem_of_mem_take hcmd), htail,
    List.append_nil]

theorem length_bytes_toSysCmd (cmd : AckNakCmd) : (AckNakCmd.toSysCmd cmd).bytes.length = 5 := by
  simp [AckNakCmd.toSysCmd, SysCmd.bytes, vRawPackAckNakCmd, vnpRawPackUint8, vnpRawPackUint32]

theorem length_flatMap_toSysCmd (entries : List AckNakCmd) :
    ((entries.map AckNakCmd.toSysCmd).flatMap SysCmd.bytes).length = 5 * entries.length := by
  induction entries with
  | nil => rfl
  | cons cmd rest ih =>
      rw [List.map_cons, List.flatMap_cons, List.length_append, ih, length_bytes_toSysCmd,
        List.length_cons]
      omega

/-- A packet without node commands is far below the largest size. -/
theorem SendConn.length_bytes_lt (c : SendConn) :
    (c.ackCmds.flatMap SysCmd.bytes).length + versePacketHeaderSize < 2 ^ 16 := by
  have hlen := length_ackNakSysCmds c.ackNak
  have hcount : maxSystemCommandCount = 64 := rfl
  have hheader : versePacketHeaderSize = 16 := rfl
  have hentries : ((ackNakSysCmds c.ackNak).flatMap SysCmd.bytes).length ≤ 320 := by
    rw [ackNakSysCmds, length_flatMap_toSysCmd, List.length_take]
    omega
  have hfps : (c.fpsCmd.flatMap SysCmd.bytes).length ≤ 7 := by
    rcases c.fpsCmd_cases with hnil | ⟨id, fps, hfps⟩
    · simp [hnil]
    · have hbuilt : Preference.Built (.fps [fps]) := by simp [Preference.Built, maxFtrValueCount]
      rw [hfps, List.flatMap_singleton, length_bytes_negotiate hbuilt]
      simp [NegotiateCmd.length, Preference.size]
  rw [SendConn.ackCmds, List.flatMap_append, List.length_append]
  split
  · omega
  · rw [List.flatMap_nil, List.length_nil]
    omega

/-- Whatever the packet is, the peer handles the first entries of the history. -/
theorem SendConn.acknowledges_iff (hack : c.checkAckNakFlag pay = true)
    (hbound : ∀ cmd ∈ c.ackNak, cmd.2 < 2 ^ 32) :
    c.Acknowledges pay marks ↔
      (∀ (r : RSysCmds), ∀ mark ∈ ackNakIds (c.ackNak.take (maxSystemCommandCount - 1))
        (r.payId (c.ackNak.take (maxSystemCommandCount - 1)).length), mark ∈ marks) ∧
      ∀ id ∈ lastAck (c.ackNak.take maxSystemCommandCount), ∀ ankId,
        ankIdAfter (c.ackNak.take (maxSystemCommandCount - 1)) ankId = id := by
  have hread := c.leadingAckNaks_read hbound
  have hsend : (c.send pay).2 = some c.ackCmds := SendConn.send_ack hack
  constructor
  · intro hall
    have hsize := c.length_bytes_lt
    generalize hbytes : vPackPacketHeader payAckHeader ++ c.ackCmds.flatMap SysCmd.bytes ++ [] =
      bytes
    have hdatagram : datagram payAckHeader c.ackCmds [] = some bytes := by
      rw [datagram, vPackDgramSystemCommands_built c.length_ackCmds_le c.ackCmds_built,
        Option.map_some, hbytes]
    have hlen : (UInt16.ofNat bytes.length).toNat = bytes.length := by
      apply UInt16.toNat_ofNat_of_lt
      rw [← hbytes, List.append_nil, List.length_append, length_vPackPacketHeader]
      show _ < 2 ^ 16
      omega
    have hone : ∀ r : RSysCmds, _ := fun r => hall c.ackCmds payAckHeader [] bytes (ofBytes bytes)
      (UInt16.ofNat bytes.length) r hsend (by simp) hdatagram (holds_ofBytes bytes) hlen
    have hcmds : ∀ r : RSysCmds, (∀ mark ∈ ackNakIds (c.ackNak.take (maxSystemCommandCount - 1))
          (r.payId (c.ackNak.take (maxSystemCommandCount - 1)).length), mark ∈ marks) ∧
        ∀ id ∈ lastAck (c.ackNak.take maxSystemCommandCount), ∀ ankId,
          ankIdAfter (c.ackNak.take (maxSystemCommandCount - 1)) ankId = id := by
      intro r
      obtain ⟨pos, cmds, hunpack, hmarks, hank⟩ := hone r
      obtain ⟨pos', hunpack'⟩ := readSysCmds c.length_ackCmds_le c.ackCmds_built (by simp) hdatagram
        (holds_ofBytes bytes) hlen
      rw [hunpack, Option.some.injEq, Prod.mk.injEq] at hunpack'
      rw [hunpack'.2] at hmarks hank
      simp only [handledMarks, handledAnkId, hread] at hmarks hank
      exact ⟨hmarks, hank⟩
    exact ⟨fun r => (hcmds r).1, (hcmds ⟨fun _ => 0, rfl⟩).2⟩
  · rintro ⟨hmarks, hank⟩ sysCmds header nodeBytes bytes buf bufferLen r hsys hnode hbytes hholds hlen
    obtain rfl : c.ackCmds = sysCmds := Option.some.inj (hsend.symm.trans hsys)
    obtain ⟨pos, hunpack⟩ :=
      readSysCmds c.length_ackCmds_le c.ackCmds_built hnode hbytes hholds hlen
    refine ⟨pos, _, hunpack, ?_, ?_⟩
    · rw [handledMarks, hread]
      exact hmarks r
    · simp only [handledAnkId, hread]
      exact hank

/-! ## The last ACK -/

theorem lastAck_append_ack (entries : List AckNakCmd) (id : ℕ) :
    lastAck (entries ++ [(.ack, id)]) = some id := by
  simp [lastAck]

theorem lastAck_append_nak (entries : List AckNakCmd) (id : ℕ) :
    lastAck (entries ++ [(.nak, id)]) = lastAck entries := by
  simp [lastAck]

theorem ankIdAfter_append (entries : List AckNakCmd) (cmd : AckNakCmd) (ankId : ℕ) :
    ankIdAfter (entries ++ [cmd]) ankId = if cmd.1 = .ack then cmd.2 else ankId := by
  obtain ⟨kind, id⟩ := cmd
  cases kind <;> simp [ankIdAfter]

/-- The array is shorter than what is sent, or it is longer and begins with an ACK. -/
def AckNakFits (cmds : List AckNakCmd) : Prop :=
  cmds.length < maxSystemCommandCount ∨
    maxSystemCommandCount < cmds.length ∧ ∀ cmd ∈ cmds.head?, cmd.1 = .ack

/-- What is acknowledged or resent is sound for every array. -/
theorem Compressed.ackNakIds_take (h : Compressed cmds last marks) (r : RSysCmds) :
    ∀ mark ∈ Verse.ackNakIds (cmds.take (maxSystemCommandCount - 1))
      (r.payId (cmds.take (maxSystemCommandCount - 1)).length), mark ∈ marks := by
  rcases Nat.lt_or_ge (maxSystemCommandCount - 1) cmds.length with hlt | hge
  · obtain ⟨entry, after, hdrop⟩ : ∃ entry after,
        cmds.drop (maxSystemCommandCount - 1) = entry :: after :=
      ⟨_, _, (List.getElem_cons_drop hlt).symm⟩
    have hsplit : cmds.take (maxSystemCommandCount - 1) ++ entry :: after = cmds := by
      rw [← hdrop, List.take_append_drop]
    have hpairwise : cmds.Pairwise fun a b => a.2 < b.2 :=
      List.pairwise_map.mp h.alternates.pairwise
    rw [← hsplit, List.pairwise_append] at hpairwise
    have hlen : (cmds.take (maxSystemCommandCount - 1)).length = maxSystemCommandCount - 1 :=
      List.length_take_of_le (Nat.le_of_lt hlt)
    intro mark hmark
    rw [hlen, r.last_zero] at hmark
    rw [h.marks_eq, ← hsplit, spans_append, List.mem_append]
    left
    exact ackNakIds_subset_spans hpairwise.1
      (fun cmd hcmd => hpairwise.2.2 cmd (List.mem_of_getLast? hcmd) entry (by simp))
      (Nat.zero_le _) mark hmark
  · rw [List.take_of_length_le hge, h.ackNakIds]
    exact fun mark hmark => hmark

/-- `ank_id` becomes the id of the last ACK that was sent exactly if the array
fits. -/
theorem Compressed.ankIdAfter_take (h : Compressed cmds last marks) :
    (∀ id ∈ lastAck (cmds.take maxSystemCommandCount), ∀ ankId,
      ankIdAfter (cmds.take (maxSystemCommandCount - 1)) ankId = id) ↔ AckNakFits cmds := by
  have hcount : maxSystemCommandCount = 64 := rfl
  rcases Nat.lt_or_ge cmds.length maxSystemCommandCount with hlt | hge
  · -- the whole array is read
    refine iff_of_true ?_ (Or.inl hlt)
    rw [List.take_of_length_le (Nat.le_of_lt hlt), List.take_of_length_le (Nat.le_sub_one_of_lt hlt)]
    rcases List.eq_nil_or_concat cmds with rfl | ⟨init, x, rfl⟩
    · simp [lastAck]
    · obtain rfl := h.last_eq x (by simp)
      rw [List.concat_eq_append, lastAck_append_ack]
      intro id hid ankId
      rw [ankIdAfter_append, if_pos rfl]
      exact Option.some.inj hid
  · obtain ⟨x, hx⟩ : ∃ x, cmds[2 * 31]? = some x := ⟨_, List.getElem?_eq_getElem (by omega)⟩
    obtain ⟨y, hy⟩ : ∃ y, cmds[2 * 31 + 1]? = some y := ⟨_, List.getElem?_eq_getElem (by omega)⟩
    obtain ⟨a, ha⟩ : ∃ a, cmds[0]? = some a := ⟨_, List.getElem?_eq_getElem (by omega)⟩
    have hhead : cmds.head? = some a := by rw [List.head?_eq_getElem?, ha]
    have hread : cmds.take (maxSystemCommandCount - 1) = cmds.take 62 ++ [x] := by
      rw [show maxSystemCommandCount - 1 = 62 + 1 from rfl, List.take_add_one, hx]
      rfl
    have hsent : cmds.take maxSystemCommandCount = cmds.take 62 ++ [x] ++ [y] := by
      rw [← hread, show maxSystemCommandCount = 63 + 1 from rfl, List.take_add_one, hy]
      rfl
    have hkind : a.1 = x.1 := h.alternates.same_kind 31 (by omega) ha hx
    rw [hread, hsent]
    obtain ⟨kx, nx⟩ := x
    obtain ⟨ky, ny⟩ := y
    simp only at hkind
    simp only [ankIdAfter_append]
    rcases Nat.lt_or_eq_of_le hge with hgt | heq
    · have hne := h.alternates.ne_next (by omega) hx hy
      cases kx with
      | ack =>
          obtain rfl : ky = .nak := by
            cases ky with
            | ack => exact absurd rfl hne
            | nak => rfl
          refine iff_of_true ?_ (Or.inr ⟨hgt, fun cmd hcmd => ?_⟩)
          · rw [lastAck_append_nak, lastAck_append_ack]
            intro id hid ankId
            exact Option.some.inj hid
          · rw [hhead] at hcmd
            rw [← Option.some.inj hcmd, hkind]
      | nak =>
          obtain rfl : ky = .ack := by
            cases ky with
            | ack => rfl
            | nak => exact absurd rfl hne
          refine iff_of_false ?_ ?_
          · rw [lastAck_append_ack]
            intro hall
            have := hall ny rfl (ny + 1)
            simp at this
          · rintro (hlt | ⟨-, hack⟩)
            · omega
            · have := hack a hhead
              rw [hkind] at this
              cases this
    · -- the entry that is lost is the last one, an ACK
      have hlast : cmds.getLast? = some (ky, ny) := by
        rw [List.getLast?_eq_getElem?, ← heq]
        exact hy
      obtain ⟨rfl, rfl⟩ := Prod.mk.inj (h.last_eq _ hlast)
      have hlt : nx < ny := by
        have hpairwise := List.pairwise_map.mp h.alternates.pairwise
        rw [List.pairwise_iff_getElem] at hpairwise
        obtain ⟨hi, hxe⟩ := List.getElem?_eq_some_iff.mp hx
        obtain ⟨hj, hye⟩ := List.getElem?_eq_some_iff.mp hy
        have := hpairwise _ _ hi hj (by omega)
        rwa [hxe, hye] at this
      refine iff_of_false ?_ ?_
      · rw [lastAck_append_ack]
        intro hall
        have := hall ny rfl (ny + 1)
        cases kx with
        | ack => simp only [if_true] at this; omega
        | nak => simp at this
      · rintro (hlt | ⟨hgt, -⟩) <;> omega

/-- **Truncated acknowledgement lists.**  Whatever the history of ACK and NAK commands
is, what the peer acknowledges was received and what it resends was skipped.  That its
`ank_id` becomes the id of the last ACK entry sent holds exactly if the history has
fewer than `MAX_SYSTEM_COMMAND_COUNT` entries, or has more and begins with an ACK. -/
theorem truncatedAcks_iff (c : SendConn) (pay : Bool) (last : ℕ) (marks : List AckNakCmd)
    (hack : c.checkAckNakFlag pay = true) (h : Compressed c.ackNak last marks)
    (hlast : last < 2 ^ 32) : c.Acknowledges pay marks ↔ AckNakFits c.ackNak := by
  have hbound : ∀ cmd ∈ c.ackNak, cmd.2 < 2 ^ 32 := fun cmd hcmd =>
    Nat.lt_of_le_of_lt (h.le_last cmd hcmd) hlast
  rw [SendConn.acknowledges_iff hack hbound, h.ankIdAfter_take]
  exact and_iff_right h.ackNakIds_take

/-- One packet arrived, and a payload packet is sent. -/
theorem truncatedAcks_iff_short :
    SendConn.Acknowledges ⟨.zero, [(.ack, 1)], true, false, 0, 0, 0⟩ true [(.ack, 1)] :=
  (truncatedAcks_iff ⟨.zero, [(.ack, 1)], true, false, 0, 0, 0⟩ true 1 [(.ack, 1)] (by decide)
    ⟨rfl, by simp, by simp [span_succ_self]⟩ (by decide)).mpr (Or.inl (by decide))

/-- Every second packet is lost. -/
def evenIds : List ℕ := (List.range 32).map fun i => 2 * i + 2

/-- Every second of 64 packets is lost: the last of the 64 entries is an ACK that the
peer does not read. -/
theorem truncatedAcks_full :
    ¬ ∀ (c : SendConn) (pay : Bool) (last : ℕ) (marks : List AckNakCmd),
      c.checkAckNakFlag pay = true → Compressed c.ackNak last marks → last < 2 ^ 32 →
      c.Acknowledges pay marks := by
  intro hall
  have hempty : Compressed vAckNakHistoryInit.cmds 0 [] := ⟨trivial, by simp [vAckNakHistoryInit], rfl⟩
  obtain ⟨history, hrecord, hcomp⟩ := @recordAll_compressed [] 0 vAckNakHistoryInit hempty evenIds
    (by decide) (by decide)
  have hlen : (recordAll vAckNakHistoryInit 0 evenIds).map (·.cmds.length) = some 64 := by decide
  rw [hrecord, Option.map_some, Option.some.injEq] at hlen
  have hack : SendConn.checkAckNakFlag ⟨.zero, history.cmds, true, false, 0, 0, 0⟩ true = true := by
    simp [SendConn.checkAckNakFlag, hlen]
  have hsound := hall ⟨.zero, history.cmds, true, false, 0, 0, 0⟩ true _ _ hack hcomp (by decide)
  have hbound : ∀ cmd ∈ history.cmds, cmd.2 < 2 ^ 32 := fun cmd hcmd =>
    Nat.lt_of_le_of_lt (hcomp.le_last cmd hcmd) (by decide)
  have hfits := hcomp.ankIdAfter_take.mp ((SendConn.acknowledges_iff hack hbound).mp hsound).2
  rcases hfits with hlt | ⟨hgt, -⟩
  · exact absurd hlt (by rw [hlen]; decide)
  · exact absurd hgt (by rw [hlen]; decide)

end Verse
