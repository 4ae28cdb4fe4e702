import Verse.Commands.SingleCmd
import Verse.Packets.SysRoundTrip
import Verse.Stream.Session

/-!
# Messages in a byte stream

`v_STREAM_handle_messages` takes what one call of `v_tcp_read` gave for one message.
TCP does not keep the boundaries between messages, so that this is right only when
every read returns the bytes of exactly one message: what follows the first message
in a read is taken for its node commands, and the header of the second one stops
them; and the first four bytes of the rest of a message are taken for a header.

## Strategy

`receivedMessage_pack` is the round trip of one message, from the round trip of its
FPS command and of its node commands, which are packed one by one.  The loop over
the reads follows by induction.
-/

namespace Verse

open Lib

/-! ## The system commands of a message -/

theorem negotiateFpsCmds_cases (session : VSession) :
    (negotiateFpsCmds session).1 = [] ∨
      ∃ id fps, (negotiateFpsCmds session).1 = [.sys (.negotiate ⟨id, .fps [fps]⟩)] := by
  unfold negotiateFpsCmds
  split
  · exact Or.inr ⟨_, _, rfl⟩
  split
  · exact Or.inr ⟨_, _, rfl⟩
  · exact Or.inl rfl

/-- A negotiate command for FPS comes back. -/
theorem sysReads_fps (id : NegotiateId) (fps : UInt32) :
    SysReads unpackMessageCmd (SysCmd.negotiate ⟨id, .fps [fps]⟩).bytes
      (.sys (.negotiate ⟨id, .fps [fps]⟩)) := by
  generalize hcmd : (⟨id, .fps [fps]⟩ : NegotiateCmd) = cmd
  have hbuilt : cmd.preference.Built := by
    rw [← hcmd]
    simp [Preference.Built, maxFtrValueCount]
  have hback : (SysCmd.negotiate cmd).readBack = .negotiate cmd := by
    rw [← hcmd]
    rfl
  refine ⟨SysCmd.bytes_pos _ hbuilt, fun m size hle hlt hholds => ?_⟩
  have hlen := length_bytes_negotiate hbuilt
  have hread := vRawUnpackNegotiateCmd_pack hbuilt (hlen ▸ hle)
    (lt_trans hlt (Nat.pow_lt_pow_right (by decide) (by decide))) hholds
  have hid : m 0 = cmd.id.toByte := by
    simp only [SysCmd.bytes, holds_append] at hholds
    exact holds_vnpRawPackUint8 hholds.1.1.1
  have hnot : ∀ id : NegotiateId, id.toByte ≠ 7 ∧ id.toByte ≠ 8 ∧ id.toByte ≠ 9 ∧
      id.toByte ≤ maxSysCmdId := by
    intro id
    cases id <;> decide
  obtain ⟨hrequest, hfailure, hsuccess, hsys⟩ := hnot cmd.id
  refine ⟨hid ▸ hsys, ?_⟩
  rw [unpackMessageCmd, hid, if_neg hrequest, if_neg hfailure, if_neg hsuccess,
    NegotiateId.ofByte_toByte, Option.map_some, hread, hlen, hback]

/-! ## The node commands of a message -/

theorem readsAll_of_inside {pieces : List (List UInt8 × List GenericCmd)}
    (h : ∀ piece ∈ pieces, ReadsInside piece.1 piece.2)
    (hlast : ∀ piece ∈ pieces.getLast?, ReadsAtEnd piece.1 piece.2) : ReadsAll pieces := by
  induction pieces with
  | nil => exact trivial
  | cons piece rest ih =>
      cases rest with
      | nil => exact hlast piece rfl
      | cons next rest =>
          refine ⟨h piece (by simp), ih (fun p hp => h p (by simp [hp])) fun p hp => hlast p ?_⟩
          rw [List.getLast?_cons_cons]
          exact hp

/-- The node commands can be sent by themselves: they are built as such, and an empty
string is not the last thing in the message. -/
structure StreamMessage.Sendable (m : StreamMessage) : Prop where
  built : ∀ cmd ∈ m.cmds, cmd.Built
  last : ∀ cmd ∈ m.cmds.getLast?, ¬ cmd.EmptyString

/-- The commands are packed, and read back where nothing follows them. -/
theorem cmds_readsAll {cmds : List GenericCmd} (hbuilt : ∀ cmd ∈ cmds, cmd.Built)
    (hlast : ∀ cmd ∈ cmds.getLast?, ¬ cmd.EmptyString) :
    ∃ pieces : List (List UInt8 × List GenericCmd),
      (cmds.mapM fun cmd => vCmdPack cmd (vCmdSize cmd) 0) = some (pieces.map Prod.fst) ∧
      pieces.flatMap Prod.snd = cmds ∧
      (pieces.flatMap Prod.fst).head? = cmds.head?.map GenericCmd.id ∧ ReadsAll pieces := by
  choose! bytes hpack hhead hinside hatEnd using
    fun (cmd : GenericCmd) (h : cmd.Built) => GenericCmd.alone_reads h
  refine ⟨cmds.map fun cmd => (bytes cmd, [cmd]), ?_, ?_, ?_, readsAll_of_inside ?_ ?_⟩
  · rw [List.map_map]
    exact mapM_eq_some_map fun cmd hcmd => hpack cmd (hbuilt cmd hcmd)
  · rw [List.flatMap_map]
    exact List.flatMap_singleton' cmds
  · cases cmds with
    | nil => rfl
    | cons cmd rest =>
        have hfirst := hhead cmd (hbuilt cmd (by simp))
        rw [List.flatMap_map, List.flatMap_cons, List.head?_append, hfirst]
        rfl
  · intro piece hpiece
    obtain ⟨cmd, hcmd, rfl⟩ := List.mem_map.mp hpiece
    exact hinside cmd (hbuilt cmd hcmd)
  · intro piece hpiece
    rw [List.getLast?_map] at hpiece
    obtain ⟨cmd, hcmd, rfl⟩ := Option.map_eq_some_iff.mp hpiece
    exact hatEnd cmd (hbuilt cmd (List.mem_of_getLast? hcmd)) (hlast cmd hcmd)

/-! ## One message -/

/-- `v_STREAM_pack_message` wrote the message. -/
def StreamMessage.Written (m : StreamMessage) : Prop :=
  ∃ session takes session', vStreamPackMessage session takes = some (session', some m)

theorem StreamMessage.Written.cases {m : StreamMessage} (h : m.Written) :
    (m.sysCmds = [] ∨ ∃ id fps, m.sysCmds = [.sys (.negotiate ⟨id, .fps [fps]⟩)]) ∧
      ∀ cmd ∈ m.cmds, minCmdId ≤ cmd.id.toNat := by
  obtain ⟨session, takes, session', hpack⟩ := h
  unfold vStreamPackMessage at hpack
  split at hpack
  · cases hpack
  · obtain ⟨session₁, -, heq⟩ := Option.map_eq_some_iff.mp hpack
    obtain ⟨-, hm⟩ := Prod.mk.inj heq
    obtain rfl := Option.some.inj hm
    refine ⟨negotiateFpsCmds_cases session, fun cmd hcmd => ?_⟩
    exact of_decide_eq_true (List.mem_filter.mp hcmd).2

/-- The system commands are packed, and read back before the node commands. -/
theorem StreamMessage.Written.sysReads {m : StreamMessage} (h : m.Written) :
    ∃ pieces : List (List UInt8 × MessageCmd), pieces.length ≤ 1 ∧
      vPackStreamSystemCommands m.sysCmds = some (pieces.flatMap Prod.fst) ∧
      pieces.map Prod.snd = m.sysCmds ∧ beforeReserved m.sysCmds = m.sysCmds ∧
      ∀ piece ∈ pieces, SysReads unpackMessageCmd piece.1 piece.2 := by
  rcases h.cases.1 with hnil | ⟨id, fps, hfps⟩
  · rw [hnil]
    exact ⟨[], by simp, rfl, rfl, rfl, by simp⟩
  · rw [hfps]
    have hbuilt : (SysCmd.negotiate ⟨id, .fps [fps]⟩).Built := by
      simp [SysCmd.Built, Preference.Built, maxFtrValueCount]
    have hpack := packSysCmd_built hbuilt
    refine ⟨[((SysCmd.negotiate ⟨id, .fps [fps]⟩).bytes, .sys (.negotiate ⟨id, .fps [fps]⟩))],
      by simp, ?_, rfl, by simp [beforeReserved], by simpa using sysReads_fps id fps⟩
    simp [vPackStreamSystemCommands, maxSystemCommandCount, packMessageCmd, hpack]

/-- **A message comes back.** -/
theorem receivedMessage_pack {m : StreamMessage} (hwritten : m.Written) (hsend : m.Sendable)
    {bytes : List UInt8} (hpack : m.pack = some bytes) (hsize : bytes.length < 2 ^ 16) {buf : Mem}
    (hholds : Holds buf bytes) :
    receivedMessage buf bytes.length = some (m.sysCmds, m.cmds) := by
  obtain ⟨sys, hcount, hsysPack, hsysCmds, hreserved, hsysReads⟩ := hwritten.sysReads
  obtain ⟨pieces, hcmdPack, hcmds, hhead, hreads⟩ := cmds_readsAll hsend.built hsend.last
  have hbytes : bytes = vPackMessageHeader ⟨1, UInt16.ofNat (verseMessageHeaderSize +
      (sys.flatMap Prod.fst ++ (pieces.map Prod.fst).flatten).length)⟩ ++
      (sys.flatMap Prod.fst ++ pieces.flatMap Prod.fst) := by
    simp only [StreamMessage.pack, hsysPack, hcmdPack, Option.bind_eq_bind, Option.bind_some,
      Option.pure_def, Option.some.injEq] at hpack
    exact hpack.symm
  have hheader : ∀ header, (vPackMessageHeader header).length = verseMessageHeaderSize := fun _ => rfl
  have hlength : bytes.length = verseMessageHeaderSize + ((sys.flatMap Prod.fst).length +
      (pieces.flatMap Prod.fst).length) := by
    rw [hbytes, List.length_append, hheader, List.length_append]
  have hfour : verseMessageHeaderSize = 4 := rfl
  rw [hbytes, holds_append, hheader, holds_append, shift_shift] at hholds
  obtain ⟨-, hsysHolds, hcmdHolds⟩ := hholds
  have hlen : (UInt16.ofNat (bytes.length - verseMessageHeaderSize)).toNat =
      bytes.length - verseMessageHeaderSize := by
    rw [UInt16.toNat_ofNat']
    exact Nat.mod_eq_of_lt (by omega)
  -- the first node command stops the loop over the system commands
  have hend : 0 + (sys.flatMap Prod.fst).length < bytes.length - verseMessageHeaderSize →
      maxSysCmdId < buf.shift verseMessageHeaderSize (0 + (sys.flatMap Prod.fst).length) := by
    intro hlt
    cases hcmd : m.cmds with
    | nil =>
        rw [hcmd, List.head?_nil, Option.map_none, List.head?_eq_none_iff] at hhead
        rw [hhead, List.length_nil] at hlength
        omega
    | cons cmd rest =>
        have hid := hwritten.cases.2 cmd (by simp [hcmd])
        rw [hcmd, List.head?_cons, Option.map_some] at hhead
        obtain ⟨tail, htail⟩ := List.head?_eq_some_iff.mp hhead
        rw [htail] at hcmdHolds
        have hfirst := (holds_cons.mp hcmdHolds).1
        rw [shift_apply, Nat.add_zero] at hfirst
        rw [shift_apply, Nat.zero_add, hfirst, UInt8.lt_iff_toNat_lt]
        exact Nat.lt_of_succ_le hid
  have hsysRun : receivedSysCmds buf bytes.length =
      (verseMessageHeaderSize + (sys.flatMap Prod.fst).length, m.sysCmds) := by
    have hrun : vUnpackMessageSystemCommands (buf.shift verseMessageHeaderSize)
        (UInt16.ofNat (bytes.length - verseMessageHeaderSize)) =
          (0 + (sys.flatMap Prod.fst).length, sys.map Prod.snd) := by
      rw [vUnpackMessageSystemCommands, hlen]
      exact unpackSysCmds_pieces hsysReads (Nat.le_trans hcount (by decide)) (by omega) (by omega)
        (fun _ => hend) (by rwa [shift_shift, Nat.add_zero])
    rw [receivedSysCmds, hrun, hsysCmds, Nat.zero_add]
    simp only [hreserved]
  have hrest : (UInt16.ofNat (bytes.length -
      (verseMessageHeaderSize + (sys.flatMap Prod.fst).length))).toNat =
      (pieces.flatMap Prod.fst).length := by
    rw [UInt16.toNat_ofNat', hlength]
    have hsub : verseMessageHeaderSize + ((sys.flatMap Prod.fst).length +
        (pieces.flatMap Prod.fst).length) - (verseMessageHeaderSize +
          (sys.flatMap Prod.fst).length) = (pieces.flatMap Prod.fst).length := by omega
    rw [hsub]
    exact Nat.mod_eq_of_lt (by omega)
  have hcmdRun : unpackFrom (buf.shift (verseMessageHeaderSize + (sys.flatMap Prod.fst).length))
      (pieces.flatMap Prod.fst).length (pieces.flatMap Prod.fst).length 0 =
        some ((pieces.flatMap Prod.fst).length, m.cmds) := by
    rw [unpackFrom_readsAll (by omega) hreads (Nat.zero_add _) (by rwa [shift_shift, Nat.add_zero])
      (by omega), hcmds]
  rw [receivedMessage, if_neg (by omega), hsysRun]
  simp only [vCmdUnpack, hrest, hcmdRun, Option.map_some]

/-! ## The loop over the reads -/

/-- `MAX_PACKET_SIZE`. -/
def maxPacketSize : ℕ := 65535

/-- What a call of `v_tcp_read` returned: the bytes that were read, and the buffer,
which holds something else behind them. -/
structure TcpRead where
  bytes : List UInt8
  buf : Mem
  holds : Holds buf bytes
  nonempty : bytes ≠ []
  size : bytes.length ≤ maxPacketSize

/-- The loops `vs_STREAM_OPEN_tcp_loop` and `vc_STREAM_OPEN_loop`, as far as they
receive: they are left when a read is not handled. -/
def receiveAll : VSession → List TcpRead → Option VSession
  | session, [] => some session
  | session, read :: rest =>
      match vStreamHandleMessages session read.buf read.bytes.length with
      | none => none
      | some none => some session
      | some (some session) => receiveAll session rest

/-- What a message does to the session of the receiver. -/
def VSession.apply (session : VSession) (m : StreamMessage) : Option VSession :=
  let session := m.sysCmds.foldl negotiateFps session
  (pushAll session.inQueue m.cmds).map fun inQueue => { session with inQueue := inQueue }

/-- Node commands of the table are pushed. -/
theorem exists_pushAll {cmds : List GenericCmd} (hbuilt : ∀ cmd ∈ cmds, cmd.Built)
    (l : List CmdPtr) : ∃ l', pushAll l cmds = some l' := by
  induction cmds generalizing l with
  | nil => exact ⟨l, rfl⟩
  | cons cmd rest ih =>
      obtain ⟨q, hq, hkeyed⟩ := accepted_of_isNodeCmd (show
        (cmdStruct (ptr cmd).id).isNodeCmd = true from (hbuilt cmd (by simp)).isNode)
      have hpush : ∃ l₁, listPush l (ptr cmd) = some l₁ := by
        simp only [listPush, hq, if_pos hkeyed]
        split
        · exact ⟨_, rfl⟩
        · exact ⟨_, rfl⟩
      obtain ⟨l₁, hl₁⟩ := hpush
      obtain ⟨l', hl'⟩ := ih (fun c hc => hbuilt c (by simp [hc])) l₁
      refine ⟨l', ?_⟩
      rw [pushAll, List.foldlM_cons, hl₁]
      exact hl'

/-- The read returned exactly the bytes of the message. -/
def TcpRead.Holds (read : TcpRead) (m : StreamMessage) : Prop := m.pack = some read.bytes

theorem vStreamHandleMessages_pack {m : StreamMessage} (hwritten : m.Written) (hsend : m.Sendable)
    {read : TcpRead} (hread : read.Holds m) (session : VSession) :
    ∃ session', session.apply m = some session' ∧
      vStreamHandleMessages session read.buf read.bytes.length = some (some session') := by
  have hsize := read.size
  have hmax : maxPacketSize = 65535 := rfl
  have hmessage := receivedMessage_pack hwritten hsend hread (by omega) read.holds
  have hheader : ¬ read.bytes.length < verseMessageHeaderSize := by
    intro hlt
    rw [receivedMessage, if_pos hlt] at hmessage
    cases hmessage
  obtain ⟨inQueue, hpush⟩ :=
    exists_pushAll hsend.built (m.sysCmds.foldl negotiateFps session).inQueue
  refine ⟨{ m.sysCmds.foldl negotiateFps session with inQueue := inQueue }, ?_, ?_⟩
  · rw [VSession.apply, hpush, Option.map_some]
  · rw [vStreamHandleMessages, if_neg hheader, hmessage]
    simp only [hpush, Option.map_some]

/-- **Stream framing.**  If every read returns the bytes of exactly one message, and no
message ends with an empty string, then every message is received as it was packed,
and the session is the one after the packed commands were pushed and the packed FPS
commands were applied, in order. -/
theorem stream_framing (messages : List StreamMessage) (reads : List TcpRead)
    (hwritten : ∀ m ∈ messages, m.Written) (hsend : ∀ m ∈ messages, m.Sendable)
    (hcut : List.Forall₂ TcpRead.Holds reads messages) (session : VSession) :
    (reads.map fun read => receivedMessage read.buf read.bytes.length) =
        messages.map (fun m => some (m.sysCmds, m.cmds)) ∧
      ∃ session', receiveAll session reads = some session' ∧
        messages.foldlM VSession.apply session = some session' := by
  induction hcut generalizing session with
  | nil => exact ⟨rfl, session, rfl, rfl⟩
  | cons hread _ ih =>
      rename_i read m reads messages _
      have hm := hwritten m (by simp)
      have hs := hsend m (by simp)
      have hmax : maxPacketSize = 65535 := rfl
      have hsize := read.size
      have hmessage := receivedMessage_pack hm hs hread (by omega) read.holds
      obtain ⟨session₁, happly, hhandle⟩ := vStreamHandleMessages_pack hm hs hread session
      obtain ⟨hrest, session', hreceive, hfold⟩ :=
        ih (fun m' hm' => hwritten m' (by simp [hm'])) (fun m' hm' => hsend m' (by simp [hm'])) session₁
      refine ⟨?_, session', ?_, ?_⟩
      · rw [List.map_cons, List.map_cons, hmessage, hrest]
      · rw [receiveAll, hhandle]
        exact hreceive
      · rw [List.foldlM_cons, happly]
        exact hfold

/-! ## Messages that are read together -/

/-- A read of the given bytes. -/
def tcpRead (bytes : List UInt8) (hne : bytes ≠ []) (hsize : bytes.length ≤ maxPacketSize) :
    TcpRead where
  bytes := bytes
  buf := ofBytes bytes
  holds := holds_ofBytes bytes
  nonempty := hne
  size := hsize

/-- A session with FPS 50.0 and a command to be sent. -/
def senderOf (cmd : GenericCmd) : VSession :=
  { vInitSession with
    fpsHost := 0x42480000
    outQueue := Function.update (fun _ => []) 128 [ptr cmd] }

/-- The message of this session: the FPS command and the node command. -/
def messageOf (cmd : GenericCmd) : StreamMessage :=
  ⟨[.sys (.negotiate ⟨.changeL, .fps [0x42480000]⟩)], [cmd]⟩

/-- `Node_Destroy`. -/
def destroyCmd : GenericCmd := ⟨33, [1, 0, 1, 0], none⟩

/-- `Tag_Set_String8` with the value "a". -/
def stringCmd : GenericCmd := ⟨98, [1, 0, 1, 0, 2, 0, 3, 0], some [97]⟩

theorem messageOf_written (cmd : GenericCmd)
    (h : (vStreamPackMessage (senderOf cmd) fun _ => 10).map Prod.snd = some (some (messageOf cmd))) :
    (messageOf cmd).Written := by
  obtain ⟨⟨session', m⟩, hpack, hm⟩ := Option.map_eq_some_iff.mp h
  exact ⟨senderOf cmd, fun _ => 10, session', by rw [hpack]; exact congrArg _ (congrArg _ hm)⟩

/-- The bytes of the two messages. -/
def destroyBytes : List UInt8 := [16, 0, 0, 17, 3, 7, 7, 66, 72, 0, 0, 33, 6, 0, 1, 0, 1]

def stringBytes : List UInt8 :=
  [16, 0, 0, 24, 3, 7, 7, 66, 72, 0, 0, 98, 13, 0, 0, 1, 0, 1, 0, 2, 0, 3, 1, 97]

theorem destroyCmd_message : (messageOf destroyCmd).Written ∧ (messageOf destroyCmd).Sendable := by
  have hfixed : destroyCmd.layout.varLen = false := by decide
  have hbuilt : destroyCmd.Built := ⟨by decide, by decide, fun _ => rfl, by simp [hfixed]⟩
  refine ⟨messageOf_written _ (by decide +kernel), by simpa [messageOf] using hbuilt, ?_⟩
  simp [messageOf, GenericCmd.EmptyString, hfixed]

theorem stringCmd_message : (messageOf stringCmd).Written ∧ (messageOf stringCmd).Sendable := by
  have hvar : stringCmd.layout.varLen = true := by decide
  have hbuilt : stringCmd.Built := ⟨by decide, by decide, by simp [hvar],
    fun _ => ⟨[97], rfl, by decide, by decide⟩⟩
  have hone : strLen stringCmd = 1 := rfl
  refine ⟨messageOf_written _ (by decide +kernel), by simpa [messageOf] using hbuilt, ?_⟩
  simp [messageOf, GenericCmd.EmptyString, hone]

/-- Two messages that are read one by one. -/
theorem stream_framing_one_by_one :
    ∃ session, receiveAll vInitSession
        [tcpRead destroyBytes (by decide) (by decide), tcpRead stringBytes (by decide) (by decide)] =
        some session ∧
      session.inQueue = [ptr destroyCmd, ptr stringCmd] ∧ session.fpsPeer = 0x42480000 := by
  obtain ⟨-, session, hreceive, happly⟩ :=
    stream_framing [messageOf destroyCmd, messageOf stringCmd]
      [tcpRead destroyBytes (by decide) (by decide), tcpRead stringBytes (by decide) (by decide)]
      (by simp [destroyCmd_message, stringCmd_message])
      (by simp [destroyCmd_message, stringCmd_message])
      (.cons (show _ = _ by decide +kernel) (.cons (show _ = _ by decide +kernel) .nil))
      vInitSession
  have hview : (([messageOf destroyCmd, messageOf stringCmd].foldlM VSession.apply vInitSession).map
      fun session => (session.inQueue, session.fpsPeer)) =
        some ([ptr destroyCmd, ptr stringCmd], 0x42480000) := by
    decide +kernel
  rw [happly, Option.map_some, Option.some.injEq, Prod.mk.injEq] at hview
  exact ⟨session, hreceive, hview⟩

/-- **Counterexample.**  Both messages are returned by one read: the second command is
not received. -/
theorem stream_framing_joined :
    ∃ read : TcpRead,
      [messageOf destroyCmd, messageOf stringCmd].mapM StreamMessage.pack =
        some [destroyBytes, stringBytes] ∧
      read.bytes = [destroyBytes, stringBytes].flatten ∧
      (∀ m ∈ [messageOf destroyCmd, messageOf stringCmd], m.Written ∧ m.Sendable) ∧
      ((receiveAll vInitSession [read]).map fun session => session.inQueue) =
        some [ptr destroyCmd] ∧
      (([messageOf destroyCmd, messageOf stringCmd].foldlM VSession.apply vInitSession).map
        fun session => session.inQueue) = some [ptr destroyCmd, ptr stringCmd] := by
  refine ⟨tcpRead [destroyBytes, stringBytes].flatten (by decide) (by decide), by decide +kernel, rfl,
    by simp [destroyCmd_message, stringCmd_message], by decide +kernel, by decide +kernel⟩

end Verse
