import Verse.Receive.ServerConn
import Verse.Resend.SysCmdArray

/-!
# The negotiation of FPS in a received packet

The loop of `handle_packet_in_OPEN_state` over the system commands of a packet.  It
begins at the value in `ret`: behind a call of `handle_ack_nak_commands` that is the
index of the last leading ACK or NAK command, but when only `handle_node_commands` was
called it is `RECEIVE_PACKET_SUCCESS`, which is 2.  A payload packet without the ACK
flag is therefore scanned from its third entry on, over the terminator if that stands
before.

The array `sys_cmd` is given as a whole, with what earlier packets left behind the
terminator.
-/

namespace Verse

open Lib

/-- The numbers of `RECEIVE_PACKET_*`. -/
def ReceiveResult.code : ReceiveResult → ℤ
  | .reserved => 0
  | .success => 2
  | .corrupted => 4
  | .attemptsExceed => 6
  | .unordered => 7

/-! ## The loops over the array -/

/-- The loop of `handle_ack_nak_commands`, as far as it is about `ret`. -/
def ackNakLoop (cmds : SysCmdArray) : ℕ → ℕ → ℤ → ℤ
  | 0, _, ret => ret
  | room + 1, i, ret =>
      match cmds i with
      | some (.ackNak _ _) =>
          ackNakLoop cmds room (i + 1) (if ret ≠ -2 ∧ ret = (i : ℤ) - 1 then i else -2)
      | _ => ret

/-- What `handle_ack_nak_commands` returns. -/
def handleAckNakIndex (cmds : SysCmdArray) : ℤ := ackNakLoop cmds maxSystemCommandCount 0 (-1)

/-- The entries from `rank` on that a loop up to `CMD_RESERVED_ID` goes over. -/
def SysCmdArray.scanFrom (cmds : SysCmdArray) : ℕ → ℕ → List (ℕ × SysCmd)
  | 0, _ => []
  | room + 1, rank =>
      match cmds rank with
      | none => []
      | some cmd => (rank, cmd) :: scanFrom cmds room (rank + 1)

/-- An entry that changes FPS. -/
def isFps : ℕ × SysCmd → Bool
  | (_, .negotiate ⟨.changeL, .fps (_ :: _)⟩) => true
  | (_, .negotiate ⟨.confirmL, .fps (_ :: _)⟩) => true
  | _ => false

/-- One pass of the loop over the other system commands. -/
def applyFps (session : VSession) : ℕ × SysCmd → VSession
  | (_, .negotiate ⟨.changeL, .fps (fps :: _)⟩) =>
      { session with
        fpsHost := fps
        fpsPeer := fps
        tmpFlags := session.tmpFlags ||| sysCmdNegotiateFps }
  | (_, .negotiate ⟨.confirmL, .fps (fps :: _)⟩) => { session with fpsPeer := fps }
  | _ => session

/-- `ret` behind the calls of `handle_node_commands` and `handle_ack_nak_commands`;
`none` is a packet that is dropped. -/
def openRet (conn : VServerConn) (p : VPacket) (cmds : SysCmdArray) : Option ℤ :=
  if p.hasFlag payFlag ∧ (handleNodeCommands conn p).2 = .unordered then none
  else
    let ret : ℤ := if p.hasFlag payFlag then (handleNodeCommands conn p).2.code else 0
    some (if p.hasFlag ackFlag then handleAckNakIndex cmds else ret)

/-- Where the loop over the other system commands begins. -/
def firstSysIndex (ret : ℤ) : ℕ := if 0 ≤ ret then ret.toNat else 0

/-- The entries that the loop over the other system commands goes over. -/
def openScan (conn : VServerConn) (p : VPacket) (cmds : SysCmdArray) : List (ℕ × SysCmd) :=
  match openRet conn p cmds with
  | none => []
  | some ret => cmds.scanFrom (maxSystemCommandCount - firstSysIndex ret) (firstSysIndex ret)

/-- `handle_packet_in_OPEN_state`, as far as it is about FPS. -/
def handlePacketFps (conn : VServerConn) (p : VPacket) (cmds : SysCmdArray) (session : VSession) :
    VSession :=
  (openScan conn p cmds).foldl applyFps session

/-! ## What is scanned -/

/-- `CMD_RESERVED_ID` stands at `stop`, and at no entry before it. -/
structure SysCmdArray.TerminatedAt (cmds : SysCmdArray) (stop : ℕ) : Prop where
  lt : stop < maxSystemCommandCount
  before : ∀ rank < stop, cmds rank ≠ none
  reserved : cmds stop = none

/-- The negotiations of FPS that stand before the terminator. -/
def SysCmdArray.fpsCmds (cmds : SysCmdArray) : List (ℕ × SysCmd) :=
  (cmds.scanFrom maxSystemCommandCount 0).filter isFps

/-- A command that does not change FPS leaves the session as it is. -/
theorem applyFps_of_not {entry : ℕ × SysCmd} (h : isFps entry = false) (session : VSession) :
    applyFps session entry = session := by
  unfold isFps at h
  unfold applyFps
  split at h
  · cases h
  · cases h
  · rfl

theorem foldl_applyFps (entries : List (ℕ × SysCmd)) (session : VSession) :
    entries.foldl applyFps session = (entries.filter isFps).foldl applyFps session := by
  induction entries generalizing session with
  | nil => rfl
  | cons entry rest ih =>
      cases hfps : isFps entry with
      | true => rw [List.filter_cons_of_pos hfps, List.foldl_cons, List.foldl_cons, ih]
      | false =>
          rw [List.filter_cons_of_neg (by simp [hfps]), List.foldl_cons, applyFps_of_not hfps, ih]

section Scan

variable {cmds : SysCmdArray}

theorem le_rank_of_mem_scanFrom {room rank : ℕ} {entry : ℕ × SysCmd}
    (h : entry ∈ cmds.scanFrom room rank) : rank ≤ entry.1 := by
  induction room generalizing rank with
  | zero => cases h
  | succ room ih =>
      rw [SysCmdArray.scanFrom] at h
      split at h
      · cases h
      · rcases List.mem_cons.mp h with rfl | h
        · exact Nat.le_refl _
        · have := ih h
          omega

theorem mem_scanFrom_iff {stop : ℕ} (hstop : cmds stop = none) {room rank : ℕ}
    (hbefore : ∀ i, rank ≤ i → i < stop → cmds i ≠ none) (hroom : stop ≤ rank + room)
    (hrank : rank ≤ stop) {entry : ℕ × SysCmd} :
    entry ∈ cmds.scanFrom room rank ↔
      rank ≤ entry.1 ∧ entry.1 < stop ∧ cmds entry.1 = some entry.2 := by
  induction room generalizing rank with
  | zero =>
      constructor
      · intro h
        cases h
      · rintro ⟨hle, hlt, -⟩
        omega
  | succ room ih =>
      rw [SysCmdArray.scanFrom]
      cases hcmd : cmds rank with
      | none =>
          obtain rfl : rank = stop := by
            by_contra hne
            exact hbefore rank (Nat.le_refl _) (by omega) hcmd
          constructor
          · intro h
            cases h
          · rintro ⟨hle, hlt, -⟩
            omega
      | some cmd =>
          have hlt : rank < stop := by
            refine Nat.lt_of_le_of_ne hrank fun heq => ?_
            rw [heq, hstop] at hcmd
            cases hcmd
          rw [List.mem_cons, ih (fun i hi => hbefore i (by omega)) (by omega) hlt]
          constructor
          · rintro (rfl | ⟨hle, hend, hentry⟩)
            · exact ⟨Nat.le_refl _, hlt, hcmd⟩
            · exact ⟨by omega, hend, hentry⟩
          · rintro ⟨hle, hend, hentry⟩
            rcases Nat.eq_or_lt_of_le hle with heq | hnext
            · rw [← heq, hcmd] at hentry
              exact Or.inl (Prod.ext heq.symm (Option.some.inj hentry).symm)
            · exact Or.inr ⟨hnext, hend, hentry⟩

/-- A scan that begins at a later entry goes over the end of what the other goes over. -/
theorem scanFrom_add (k : ℕ) {room rank : ℕ} (hfull : ∀ i < k, cmds (rank + i) ≠ none) :
    cmds.scanFrom (k + room) rank = cmds.scanFrom k rank ++ cmds.scanFrom room (rank + k) := by
  induction k generalizing rank with
  | zero => simp [SysCmdArray.scanFrom]
  | succ k ih =>
      obtain ⟨cmd, hcmd⟩ := Option.ne_none_iff_exists'.mp (hfull 0 (Nat.succ_pos k))
      have hrest := @ih (rank + 1) fun i hi => by
        have hnext := hfull (i + 1) (Nat.succ_lt_succ hi)
        rwa [show rank + 1 + i = rank + (i + 1) by omega]
      rw [Nat.add_zero] at hcmd
      rw [show k + 1 + room = k + room + 1 by omega, SysCmdArray.scanFrom, SysCmdArray.scanFrom, hcmd,
        hrest, show rank + (k + 1) = rank + 1 + k by omega]
      rfl

/-- Entries that do not change FPS may be left out at the beginning. -/
theorem fpsCmds_eq_of_prefix {first : ℕ} (hfirst : first ≤ maxSystemCommandCount)
    (hfull : ∀ i < first, cmds i ≠ none)
    (hother : ∀ entry ∈ cmds.scanFrom first 0, isFps entry = false) :
    cmds.fpsCmds = (cmds.scanFrom (maxSystemCommandCount - first) first).filter isFps := by
  have hsplit : cmds.scanFrom maxSystemCommandCount 0 =
      cmds.scanFrom first 0 ++ cmds.scanFrom (maxSystemCommandCount - first) first := by
    have hadd := @scanFrom_add cmds first (maxSystemCommandCount - first) 0 (by simpa using hfull)
    rwa [Nat.add_sub_cancel' hfirst, Nat.zero_add] at hadd
  have hnone : (cmds.scanFrom first 0).filter isFps = [] := by
    rw [List.filter_eq_nil_iff]
    intro entry hentry
    simp [hother entry hentry]
  rw [SysCmdArray.fpsCmds, hsplit, List.filter_append, hnone, List.nil_append]

/-- The result of the loop over the ACK and NAK commands: so many of them stand at the
beginning. -/
theorem ackNakLoop_spec (room i : ℕ) :
    ∃ k : ℕ, ackNakLoop cmds room i ((i : ℤ) - 1) = (i : ℤ) - 1 + k ∧ k ≤ room ∧
      ∀ j < k, ∃ id payId, cmds (i + j) = some (.ackNak id payId) := by
  induction room generalizing i with
  | zero => exact ⟨0, by simp [ackNakLoop], Nat.le_refl _, by simp⟩
  | succ room ih =>
      rw [ackNakLoop]
      split
      case h_1 id payId hcmd =>
        have hne : (i : ℤ) - 1 ≠ -2 := by omega
        rw [if_pos ⟨hne, rfl⟩]
        obtain ⟨k, hk, hle, hall⟩ := ih (i + 1)
        have hi : ((i + 1 : ℕ) : ℤ) - 1 = i := by omega
        rw [hi] at hk
        refine ⟨k + 1, by rw [hk]; omega, by omega, fun j hj => ?_⟩
        cases j with
        | zero => exact ⟨id, payId, hcmd⟩
        | succ j =>
            rw [show i + (j + 1) = i + 1 + j by omega]
            exact hall j (by omega)
      case h_2 => exact ⟨0, by simp, Nat.zero_le _, by simp⟩

/-- The scan behind ACK and NAK commands goes over all negotiations of FPS. -/
theorem filter_scan_ackNakIndex :
    (cmds.scanFrom (maxSystemCommandCount - firstSysIndex (handleAckNakIndex cmds))
        (firstSysIndex (handleAckNakIndex cmds))).filter isFps = cmds.fpsCmds := by
  obtain ⟨k, hk, hle, hall⟩ := @ackNakLoop_spec cmds maxSystemCommandCount 0
  have hret : handleAckNakIndex cmds = -1 + k := by simpa [handleAckNakIndex] using hk
  have hfirst : firstSysIndex (handleAckNakIndex cmds) = k - 1 := by
    unfold firstSysIndex
    split <;> omega
  rw [hfirst]
  symm
  apply fpsCmds_eq_of_prefix (by omega)
  · intro i hi
    obtain ⟨id, payId, hcmd⟩ := hall i (by omega)
    rw [Nat.zero_add] at hcmd
    simp [hcmd]
  · intro entry hentry
    -- what stands before the last ACK or NAK command are such commands
    have hscan : ∀ room rank, rank + room ≤ k → ∀ entry ∈ cmds.scanFrom room rank,
        isFps entry = false := by
      intro room
      induction room with
      | zero =>
          intro rank _ entry hentry
          cases hentry
      | succ room ih =>
          intro rank hroom entry hentry
          obtain ⟨id, payId, hcmd⟩ := hall rank (by omega)
          rw [Nat.zero_add] at hcmd
          rw [SysCmdArray.scanFrom, hcmd] at hentry
          rcases List.mem_cons.mp hentry with rfl | hentry
          · rfl
          · exact ih (rank + 1) (by omega) entry hentry
    exact hscan (k - 1) 0 (by omega) entry hentry

end Scan

/-! ## Which packets are handled right -/

section Packets

variable {conn : VServerConn} {p : VPacket} {cmds : SysCmdArray} {stop : ℕ}

theorem handleNodeCommands_unordered_iff :
    (handleNodeCommands conn p).2 = .unordered ↔
      p.payloadId.toNat < (conn.lastRPay + 1) % 2 ^ 32 := by
  unfold handleNodeCommands recordPayload
  generalize (conn.lastRPay + 1) % 2 ^ 32 = expected
  by_cases hlost : expected < p.payloadId.toNat
  · have hnot : ¬ p.payloadId.toNat < expected := by omega
    simp [hlost, hnot]
  · by_cases hold : p.payloadId.toNat < expected
    · simp [hlost, hold]
    · simp [hlost, hold]

/-- A packet that is not dropped was received in order. -/
theorem handleNodeCommands_code (h : ¬ p.payloadId.toNat < (conn.lastRPay + 1) % 2 ^ 32) :
    (handleNodeCommands conn p).2.code = 2 := by
  have hne := mt handleNodeCommands_unordered_iff.mp h
  unfold handleNodeCommands at hne ⊢
  split at hne
  case h_1 hnone => exact absurd rfl hne
  case h_2 ackNak hsome => rfl

/-- A packet that is dropped is not scanned. -/
theorem openScan_dropped (hpay : p.hasFlag payFlag = true)
    (hold : p.payloadId.toNat < (conn.lastRPay + 1) % 2 ^ 32) : openScan conn p cmds = [] := by
  have hret : openRet conn p cmds = none :=
    if_pos ⟨hpay, handleNodeCommands_unordered_iff.mpr hold⟩
  rw [openScan, hret]

theorem openRet_kept
    (hkept : p.hasFlag payFlag = true → ¬ p.payloadId.toNat < (conn.lastRPay + 1) % 2 ^ 32) :
    openRet conn p cmds =
      some (if p.hasFlag ackFlag then handleAckNakIndex cmds
        else if p.hasFlag payFlag then 2 else 0) := by
  unfold openRet
  rw [if_neg fun h => hkept h.1 (handleNodeCommands_unordered_iff.mp h.2)]
  by_cases hpay : p.hasFlag payFlag = true
  · rw [if_pos hpay, if_pos hpay, handleNodeCommands_code (hkept hpay)]
  · rw [if_neg hpay, if_neg hpay]

/-- Behind ACK and NAK commands nothing is left out. -/
theorem openScan_ack
    (hkept : p.hasFlag payFlag = true → ¬ p.payloadId.toNat < (conn.lastRPay + 1) % 2 ^ 32)
    (hack : p.hasFlag ackFlag = true) : (openScan conn p cmds).filter isFps = cmds.fpsCmds := by
  rw [openScan, openRet_kept hkept, if_pos hack]
  exact filter_scan_ackNakIndex

/-- Without the ACK flag the scan of a payload packet begins at the third entry. -/
theorem openScan_pay (hpay : p.hasFlag payFlag = true)
    (hkept : ¬ p.payloadId.toNat < (conn.lastRPay + 1) % 2 ^ 32)
    (hack : p.hasFlag ackFlag ≠ true) :
    openScan conn p cmds = cmds.scanFrom (maxSystemCommandCount - 2) 2 := by
  rw [openScan, openRet_kept fun _ => hkept, if_neg hack, if_pos hpay]
  rfl

/-- Without flags all is scanned. -/
theorem openScan_plain (hpay : p.hasFlag payFlag ≠ true) (hack : p.hasFlag ackFlag ≠ true) :
    (openScan conn p cmds).filter isFps = cmds.fpsCmds := by
  rw [openScan, openRet_kept fun h => absurd h hpay, if_neg hack, if_neg hpay]
  rfl

/-- The negotiations before the terminator. -/
theorem mem_fpsCmds_iff (h : cmds.TerminatedAt stop) {entry : ℕ × SysCmd} :
    entry ∈ cmds.fpsCmds ↔
      entry.1 < stop ∧ cmds entry.1 = some entry.2 ∧ isFps entry = true := by
  have hscan := @mem_scanFrom_iff cmds stop h.reserved maxSystemCommandCount 0
    (fun i _ hi => h.before i hi) (by have := h.lt; omega) (Nat.zero_le _) entry
  rw [SysCmdArray.fpsCmds, List.mem_filter, hscan]
  constructor
  · rintro ⟨⟨-, hlt, hcmd⟩, hfps⟩
    exact ⟨hlt, hcmd, hfps⟩
  · rintro ⟨hlt, hcmd, hfps⟩
    exact ⟨⟨Nat.zero_le _, hlt, hcmd⟩, hfps⟩

theorem fpsCmds_eq_nil_iff (h : cmds.TerminatedAt stop) :
    cmds.fpsCmds = [] ↔ ∀ rank < stop, ∀ cmd ∈ cmds rank, isFps (rank, cmd) = false := by
  rw [List.eq_nil_iff_forall_not_mem]
  constructor
  · intro hnone rank hrank cmd hcmd
    have hnot := hnone (rank, cmd)
    rw [mem_fpsCmds_iff h] at hnot
    cases hfps : isFps (rank, cmd) with
    | true => exact absurd ⟨hrank, hcmd, hfps⟩ hnot
    | false => rfl
  · intro hnone entry hentry
    obtain ⟨hlt, hcmd, hfps⟩ := (mem_fpsCmds_iff h).mp hentry
    rw [hnone entry.1 hlt entry.2 hcmd] at hfps
    cases hfps

/-- A payload packet that is dropped has no negotiation of FPS.  One that is received
without the ACK flag has none among its first two commands, and if it has fewer
commands, none stands behind the terminator where the scan goes on. -/
def FpsInReach (conn : VServerConn) (p : VPacket) (cmds : SysCmdArray) (stop : ℕ) : Prop :=
  p.hasFlag payFlag = true →
    if p.payloadId.toNat < (conn.lastRPay + 1) % 2 ^ 32 then
      ∀ rank < stop, ∀ cmd ∈ cmds rank, isFps (rank, cmd) = false
    else
      p.hasFlag ackFlag = true ∨
        (∀ rank < stop, rank < 2 → ∀ cmd ∈ cmds rank, isFps (rank, cmd) = false) ∧
          (stop < 2 → ∀ entry ∈ cmds.scanFrom (maxSystemCommandCount - 2) 2, isFps entry = false)

/-- The scan that begins at the third entry. -/
theorem filter_scan_two_iff (h : cmds.TerminatedAt stop) :
    (cmds.scanFrom (maxSystemCommandCount - 2) 2).filter isFps = cmds.fpsCmds ↔
      (∀ rank < stop, rank < 2 → ∀ cmd ∈ cmds rank, isFps (rank, cmd) = false) ∧
        (stop < 2 → ∀ entry ∈ cmds.scanFrom (maxSystemCommandCount - 2) 2,
          isFps entry = false) := by
  constructor
  · intro heq
    -- what is scanned has rank 2 at least, what stands before the terminator is below it
    refine ⟨fun rank hrank htwo cmd hcmd => ?_, fun hshort entry hentry => ?_⟩
    · cases hfps : isFps (rank, cmd) with
      | false => rfl
      | true =>
          have hmem : (rank, cmd) ∈ cmds.fpsCmds := (mem_fpsCmds_iff h).mpr ⟨hrank, hcmd, hfps⟩
          rw [← heq] at hmem
          have hle := le_rank_of_mem_scanFrom (List.mem_filter.mp hmem).1
          simp only at hle
          omega
    · cases hfps : isFps entry with
      | false => rfl
      | true =>
          have hmem : entry ∈ cmds.fpsCmds := heq ▸ List.mem_filter.mpr ⟨hentry, hfps⟩
          have hlt := ((mem_fpsCmds_iff h).mp hmem).1
          have hle := le_rank_of_mem_scanFrom hentry
          omega
  · rintro ⟨hfirst, hbehind⟩
    by_cases hshort : stop < 2
    · have hnone : cmds.fpsCmds = [] :=
        (fpsCmds_eq_nil_iff h).mpr fun rank hrank cmd hcmd =>
          hfirst rank hrank (by omega) cmd hcmd
      rw [hnone, List.filter_eq_nil_iff]
      intro entry hentry
      simp [hbehind hshort entry hentry]
    · symm
      have hlt := h.lt
      apply fpsCmds_eq_of_prefix (by omega) fun i hi => h.before i (by omega)
      intro entry hentry
      obtain ⟨cmd₀, hcmd₀⟩ := Option.ne_none_iff_exists'.mp (h.before 0 (by omega))
      obtain ⟨cmd₁, hcmd₁⟩ := Option.ne_none_iff_exists'.mp (h.before 1 (by omega))
      simp only [SysCmdArray.scanFrom, hcmd₀, hcmd₁, List.mem_cons, List.not_mem_nil, or_false]
        at hentry
      rcases hentry with rfl | rfl
      · exact hfirst 0 (by omega) (by omega) cmd₀ hcmd₀
      · exact hfirst 1 (by omega) (by omega) cmd₁ hcmd₁

/-- **When the negotiation of FPS is handled.**  Exactly the negotiate commands for FPS
that stand before the terminator are handled, each once, and the session changes
accordingly, if and only if the packet has them in the reach of the loop. -/
theorem handlePacketFps_iff (conn : VServerConn) (p : VPacket) (cmds : SysCmdArray) (stop : ℕ)
    (h : cmds.TerminatedAt stop) :
    ((openScan conn p cmds).filter isFps = cmds.fpsCmds ∧
      ∀ session, handlePacketFps conn p cmds session = cmds.fpsCmds.foldl applyFps session) ↔
    FpsInReach conn p cmds stop := by
  have hsession : (openScan conn p cmds).filter isFps = cmds.fpsCmds →
      ∀ session, handlePacketFps conn p cmds session = cmds.fpsCmds.foldl applyFps session := by
    intro heq session
    rw [handlePacketFps, foldl_applyFps, heq]
  rw [and_iff_left_of_imp hsession]
  unfold FpsInReach
  by_cases hpay : p.hasFlag payFlag = true
  · by_cases hold : p.payloadId.toNat < (conn.lastRPay + 1) % 2 ^ 32
    · rw [openScan_dropped hpay hold, List.filter_nil, if_pos hold, eq_comm, fpsCmds_eq_nil_iff h]
      exact ⟨fun hnone _ => hnone, fun hnone => hnone hpay⟩
    · rw [if_neg hold]
      by_cases hack : p.hasFlag ackFlag = true
      · exact ⟨fun _ _ => Or.inl hack, fun _ => openScan_ack (fun _ => hold) hack⟩
      · rw [openScan_pay hpay hold hack, filter_scan_two_iff h]
        exact ⟨fun hreach _ => Or.inr hreach, fun hreach => (hreach hpay).resolve_left hack⟩
  · refine ⟨fun _ h => absurd h hpay, fun _ => ?_⟩
    by_cases hack : p.hasFlag ackFlag = true
    · exact openScan_ack (fun h => absurd h hpay) hack
    · exact openScan_plain hpay hack

/-- The connection that received its first payload packet, with id 1. -/
def connAfterFirst : VServerConn := .init 1 0 5

/-- A payload packet with the id 2, and the given further flags. -/
def fpsPacket (flags : UInt8) : VPacket := ⟨vrsVersion, payFlag ||| flags, 2, 0, none, true, none⟩

/-- The array with the given commands before the terminator and nothing behind. -/
def SysCmdArray.ofList (cmds : List SysCmd) : SysCmdArray := fun rank => cmds[rank]?

/-- The peer asks for 30 frames per second (the bits of the number are `0x41F00000`). -/
def changeFps : SysCmd := .negotiate ⟨.changeL, .fps [0x41F00000]⟩

/-- With the ACK flag the negotiation is handled, wherever it stands. -/
theorem handlePacketFps_iff_ack :
    ((openScan connAfterFirst (fpsPacket ackFlag) (.ofList [.ackNak .ack 1, changeFps])).filter isFps =
        (SysCmdArray.ofList [.ackNak .ack 1, changeFps]).fpsCmds ∧
      ∀ session, handlePacketFps connAfterFirst (fpsPacket ackFlag)
          (.ofList [.ackNak .ack 1, changeFps]) session =
        (SysCmdArray.ofList [.ackNak .ack 1, changeFps]).fpsCmds.foldl applyFps session) ↔
    FpsInReach connAfterFirst (fpsPacket ackFlag) (.ofList [.ackNak .ack 1, changeFps]) 2 := by
  refine handlePacketFps_iff _ _ _ _ ⟨by decide, ?_, rfl⟩
  decide

/-- **The negotiation is not seen.**  A payload packet without the ACK flag begins with a
negotiation of FPS, and the session stays as it was. -/
theorem fps_negotiation_skipped :
    (SysCmdArray.ofList [changeFps]).TerminatedAt 1 ∧
      (SysCmdArray.ofList [changeFps]).fpsCmds = [(0, changeFps)] ∧
      (openScan connAfterFirst (fpsPacket 0) (.ofList [changeFps])).filter isFps = [] := by
  refine ⟨⟨by decide, ?_, rfl⟩, by decide +kernel, by decide +kernel⟩
  decide

end Packets

end Verse
