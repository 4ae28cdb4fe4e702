import Verse.Stream.Messages
import Verse.Packets.SysRoundTrip
import Verse.Packets.SysBounds

/-!
# User authentication on the wire

`v_user_auth_request.c`, `v_user_auth_failure.c` and `v_user_auth_success.c`: what is
packed into a message, and what the three parsers make of it and of any other bytes.

The parser of USER_AUTH_FAILURE computes the number of methods from the length before it
asks whether the length covers the header.  With a length below two the number wraps, and
the byte behind the header is taken for a method.
-/

namespace Verse

open Lib

/-! ## What comes back -/

/-- A system command as it is put into a message.  A user name and a password are strings
that are not empty and fit their arrays. -/
def MessageCmd.Built : MessageCmd → Prop
  | .userAuthRequest username methodType data =>
      (1 ≤ username.length ∧ username.length ≤ vrsMaxUsernameLength ∧ 0 ∉ username) ∧
        ((methodType = uaMethodNone ∧ data = []) ∨
          (methodType = uaMethodPassword ∧ 1 ≤ data.length ∧ data.length ≤ vrsMaxDataLength ∧
            0 ∉ data))
  | .userAuthFailure methods => methods.length ≤ vrsMaxUaMethodCount
  | .userAuthSuccess _ _ => True
  | .sys (.negotiate cmd) => cmd.preference.Built
  | .sys _ => False

/-- The bytes of a command. -/
def MessageCmd.bytes : MessageCmd → List UInt8
  | .userAuthRequest username methodType data => vRawPackUserAuthRequest username methodType data
  | .userAuthFailure methods => vRawPackUserAuthFailure methods
  | .userAuthSuccess userId avatarId => vRawPackUserAuthSuccess userId avatarId
  | .sys cmd => cmd.bytes

/-- What the parser makes of a command. -/
def MessageCmd.readBack : MessageCmd → MessageCmd
  | .sys cmd => .sys cmd.readBack
  | cmd => cmd

/-- The command comes back as it was. -/
def MessageCmd.Readable : MessageCmd → Prop
  | .sys cmd => cmd.Readable
  | _ => True

theorem MessageCmd.readBack_eq_self_iff (cmd : MessageCmd) : cmd.readBack = cmd ↔ cmd.Readable := by
  cases cmd with
  | sys cmd =>
      rw [MessageCmd.Readable, ← cmd.readBack_eq_self_iff]
      exact ⟨MessageCmd.sys.inj, congrArg MessageCmd.sys⟩
  | userAuthRequest username methodType data => exact iff_of_true rfl trivial
  | userAuthFailure methods => exact iff_of_true rfl trivial
  | userAuthSuccess userId avatarId => exact iff_of_true rfl trivial

/-! ## One command -/

theorem cString_of_not_mem {bytes : List UInt8} (h : 0 ∉ bytes) : cString bytes = bytes :=
  takeWhile_ne_zero h

theorem vCmdPackLen_small {length : ℕ} (h : length < 0xFF) :
    vCmdPackLen length = [UInt8.ofNat length] := if_neg (Nat.not_le.mpr h)

theorem vnpRawPackString8_small {bytes : List UInt8} (h : bytes.length < 0xFF) :
    vnpRawPackString8 bytes = UInt8.ofNat bytes.length :: bytes := by
  have hle : bytes.length ≤ vrsString8MaxSize := Nat.le_of_lt h
  rw [vnpRawPackString8, Nat.min_eq_left hle, List.take_length]

theorem toNat_ofNat_small {n : ℕ} (h : n < 0xFF) : (UInt8.ofNat n).toNat = n := by
  rw [UInt8.toNat_ofNat']
  omega

section Request

variable {username data : List UInt8}

/-- The bytes of a request without a password. -/
theorem vRawPackUserAuthRequest_none (hlen : username.length ≤ vrsMaxUsernameLength)
    (hzero : 0 ∉ username) :
    vRawPackUserAuthRequest username uaMethodNone data =
      7 :: UInt8.ofNat (4 + username.length) :: UInt8.ofNat username.length ::
        (username ++ [uaMethodNone]) := by
  have hlen64 : username.length ≤ 64 := hlen
  unfold vRawPackUserAuthRequest
  simp only [if_neg (show ¬ uaMethodNone = uaMethodPassword by decide), cString_of_not_mem hzero,
    List.length_nil]
  rw [show 1 + 1 + 1 + username.length + 1 + 0 = 4 + username.length by omega,
    vCmdPackLen_small (by omega), vnpRawPackString8_small (by omega)]
  rfl

/-- The bytes of a request with a password. -/
theorem vRawPackUserAuthRequest_password (hlen : username.length ≤ vrsMaxUsernameLength)
    (hzero : 0 ∉ username) (hlen' : data.length ≤ vrsMaxDataLength) (hzero' : 0 ∉ data) :
    vRawPackUserAuthRequest username uaMethodPassword data =
      7 :: UInt8.ofNat (5 + username.length + data.length) :: UInt8.ofNat username.length ::
        (username ++ uaMethodPassword :: UInt8.ofNat data.length :: data) := by
  have hlen64 : username.length ≤ 64 := hlen
  have hlen128 : data.length ≤ 128 := hlen'
  unfold vRawPackUserAuthRequest
  simp only [if_true, cString_of_not_mem hzero, cString_of_not_mem hzero']
  rw [vnpRawPackString8_small (show data.length < 0xFF by omega), List.length_cons,
    show 1 + 1 + 1 + username.length + 1 + (data.length + 1) = 5 + username.length + data.length by
      omega,
    vCmdPackLen_small (by omega), vnpRawPackString8_small (by omega)]
  rfl

end Request

section RequestBack

variable {username data : List UInt8} {m : Mem} {size : ℕ}

theorem vRawUnpackUserAuthRequest_none (hpos : 1 ≤ username.length)
    (hlen : username.length ≤ vrsMaxUsernameLength) (hsize : 4 + username.length ≤ size)
    (hholds : Holds m (7 :: UInt8.ofNat (4 + username.length) :: UInt8.ofNat username.length ::
      (username ++ [uaMethodNone]))) :
    vRawUnpackUserAuthRequest m size =
      (4 + username.length, .userAuthRequest username uaMethodNone []) := by
  have hlen64 : username.length ≤ 64 := hlen
  simp only [holds_cons, holds_append, shift_shift] at hholds
  obtain ⟨-, hcmd, hname, hstr, hmethod, -⟩ := hholds
  have hcmd : vnpRawUnpackUint8 (m.shift 1) = 4 + username.length := by
    rw [vnpRawUnpackUint8, hcmd, toNat_ofNat_small (by omega)]
  have hname : vnpRawUnpackUint8 (m.shift 2) = username.length := by
    rw [vnpRawUnpackUint8]
    exact (congrArg UInt8.toNat hname).trans (toNat_ofNat_small (by omega))
  have hmethod : m (3 + username.length) = uaMethodNone := hmethod
  have hstr : ((List.range username.length).map fun i => m (3 + i)) = username := hstr.map_range
  unfold vRawUnpackUserAuthRequest
  simp only [hcmd, hname, hmethod, hstr]
  rw [if_neg (by omega), if_neg (by omega), if_neg (by omega), if_neg (by omega),
    if_neg (by omega), if_neg (Nat.not_lt.mpr hlen), if_neg (by decide)]

theorem vRawUnpackUserAuthRequest_password (hpos : 1 ≤ username.length)
    (hlen : username.length ≤ vrsMaxUsernameLength) (hpos' : 1 ≤ data.length)
    (hlen' : data.length ≤ vrsMaxDataLength) (hsize : 5 + username.length + data.length ≤ size)
    (hholds : Holds m (7 :: UInt8.ofNat (5 + username.length + data.length) ::
      UInt8.ofNat username.length ::
        (username ++ uaMethodPassword :: UInt8.ofNat data.length :: data))) :
    vRawUnpackUserAuthRequest m size =
      (5 + username.length + data.length, .userAuthRequest username uaMethodPassword data) := by
  have hlen64 : username.length ≤ 64 := hlen
  have hlen128 : data.length ≤ 128 := hlen'
  simp only [holds_cons, holds_append, shift_shift] at hholds
  obtain ⟨-, hcmd, hname, hstr, hmethod, hpassword, hdata⟩ := hholds
  have hcmd : vnpRawUnpackUint8 (m.shift 1) = 5 + username.length + data.length := by
    rw [vnpRawUnpackUint8, hcmd, toNat_ofNat_small (by omega)]
  have hname : vnpRawUnpackUint8 (m.shift 2) = username.length := by
    rw [vnpRawUnpackUint8]
    exact (congrArg UInt8.toNat hname).trans (toNat_ofNat_small (by omega))
  have hmethod : m (3 + username.length) = uaMethodPassword := hmethod
  have hstr : ((List.range username.length).map fun i => m (3 + i)) = username := hstr.map_range
  have hpassword : vnpRawUnpackUint8 (m.shift (4 + username.length)) = data.length := by
    rw [vnpRawUnpackUint8, shift_apply, show 4 + username.length + 0 = 3 + username.length + 1 by omega]
    exact (congrArg UInt8.toNat hpassword).trans (toNat_ofNat_small (by omega))
  have hdata : ((List.range data.length).map fun i => m (5 + username.length + i)) = data := by
    rw [show 5 + username.length = 3 + username.length + 1 + 1 by omega]
    exact hdata.map_range
  unfold vRawUnpackUserAuthRequest
  simp only [hcmd, hname, hmethod, hstr, hpassword, hdata]
  rw [if_neg (by omega), if_neg (by omega), if_neg (by omega), if_neg (by omega),
    if_neg (by omega), if_neg (Nat.not_lt.mpr hlen), if_pos trivial, if_neg (by omega),
    if_neg (by omega), if_neg (by omega), if_neg (Nat.not_lt.mpr hlen')]

end RequestBack

theorem vRawUnpackUserAuthFailure_pack {methods : List UInt8} {m : Mem} {size : ℕ}
    (hcount : methods.length ≤ vrsMaxUaMethodCount)
    (hsize : (vRawPackUserAuthFailure methods).length ≤ size)
    (hholds : Holds m (vRawPackUserAuthFailure methods)) :
    vRawUnpackUserAuthFailure m size =
      ((vRawPackUserAuthFailure methods).length, .userAuthFailure methods) := by
  have hcount1 : methods.length ≤ 1 := hcount
  have hbytes : vRawPackUserAuthFailure methods =
      8 :: UInt8.ofNat (2 + methods.length) :: methods := by
    unfold vRawPackUserAuthFailure
    simp only [List.take_of_length_le hcount, vnpRawPackUint8, UInt8.ofNat_toNat]
    rw [vCmdPackLen_small (by omega), List.flatMap_singleton']
    rfl
  rw [hbytes] at hsize hholds ⊢
  simp only [List.length_cons] at hsize ⊢
  simp only [holds_cons, shift_shift] at hholds
  obtain ⟨-, hcmd, hmethods⟩ := hholds
  have hcmd : vnpRawUnpackUint8 (m.shift 1) = 2 + methods.length := by
    rw [vnpRawUnpackUint8, hcmd, toNat_ofNat_small (by omega)]
  have hmin : min ((2 + methods.length + 2 ^ 8 - 2) % 2 ^ 8) vrsMaxUaMethodCount = methods.length := by
    rw [show (2 + methods.length + 2 ^ 8 - 2) % 2 ^ 8 = methods.length by omega]
    exact Nat.min_eq_left hcount
  have hlist : ((List.range methods.length).map fun i => m (2 + i)) = methods := hmethods.map_range
  unfold vRawUnpackUserAuthFailure
  simp only [hcmd, hmin, hlist]
  rw [if_neg (by omega), if_neg (by omega), Nat.add_comm 2]

theorem vRawUnpackUserAuthSuccess_pack {userId : UInt16} {avatarId : UInt32} {m : Mem} {size : ℕ}
    (hsize : (vRawPackUserAuthSuccess userId avatarId).length ≤ size)
    (hholds : Holds m (vRawPackUserAuthSuccess userId avatarId)) :
    vRawUnpackUserAuthSuccess m size =
      ((vRawPackUserAuthSuccess userId avatarId).length, .userAuthSuccess userId avatarId) := by
  have hlength : (vRawPackUserAuthSuccess userId avatarId).length = 8 := rfl
  rw [hlength] at hsize ⊢
  simp only [vRawPackUserAuthSuccess, holds_append] at hholds
  obtain ⟨⟨⟨-, hcmd⟩, huser⟩, havatar⟩ := hholds
  have hcmd : vnpRawUnpackUint8 (m.shift 1) = 8 := congrArg UInt8.toNat (hcmd 0 (by decide))
  have huser : vnpRawUnpackUint16 (m.shift 2) = userId.toNat :=
    vnpRawUnpackUint16_pack userId.toNat_lt huser
  have havatar : vnpRawUnpackUint32 (m.shift 4) = avatarId.toNat :=
    vnpRawUnpackUint32_pack avatarId.toNat_lt havatar
  rw [vRawUnpackUserAuthSuccess, if_neg (by omega), hcmd, if_neg (by omega), huser, havatar,
    UInt16.ofNat_toNat, UInt32.ofNat_toNat]

/-- **A command comes back** as `readBack` says, wherever it stands. -/
theorem MessageCmd.reads {cmd : MessageCmd} (hbuilt : cmd.Built) :
    SysReads unpackMessageCmd cmd.bytes cmd.readBack := by
  cases cmd with
  | userAuthRequest username methodType data =>
      obtain ⟨⟨hpos, hlen, hzero⟩, ⟨rfl, rfl⟩ | ⟨rfl, hpos', hlen', hzero'⟩⟩ := hbuilt
      · have hbytes := @vRawPackUserAuthRequest_none username [] hlen hzero
        rw [MessageCmd.bytes, hbytes]
        refine ⟨Nat.succ_pos _, fun m size hsize _ hholds => ?_⟩
        have hid : m 0 = 7 := (holds_cons.mp hholds).1
        have hlength : ((7 : UInt8) :: UInt8.ofNat (4 + username.length) ::
            UInt8.ofNat username.length :: (username ++ [uaMethodNone])).length =
            4 + username.length := by
          simp only [List.length_cons, List.length_append, List.length_nil]
          omega
        rw [hlength] at hsize ⊢
        refine ⟨by rw [hid]; decide, ?_⟩
        rw [unpackMessageCmd, if_pos hid, vRawUnpackUserAuthRequest_none hpos hlen hsize hholds]
        rfl
      · have hbytes := vRawPackUserAuthRequest_password hlen hzero hlen' hzero'
        rw [MessageCmd.bytes, hbytes]
        refine ⟨Nat.succ_pos _, fun m size hsize _ hholds => ?_⟩
        have hid : m 0 = 7 := (holds_cons.mp hholds).1
        have hlength : ((7 : UInt8) :: UInt8.ofNat (5 + username.length + data.length) ::
            UInt8.ofNat username.length ::
              (username ++ uaMethodPassword :: UInt8.ofNat data.length :: data)).length =
            5 + username.length + data.length := by
          simp only [List.length_cons, List.length_append]
          omega
        rw [hlength] at hsize ⊢
        refine ⟨by rw [hid]; decide, ?_⟩
        rw [unpackMessageCmd, if_pos hid,
          vRawUnpackUserAuthRequest_password hpos hlen hpos' hlen' hsize hholds]
        rfl
  | userAuthFailure methods =>
      refine ⟨Nat.succ_pos _, fun m size hsize _ hholds => ?_⟩
      have hid : m 0 = 8 := (holds_cons.mp hholds).1
      refine ⟨by rw [hid]; decide, ?_⟩
      rw [unpackMessageCmd, if_neg (by rw [hid]; decide), if_pos hid,
        vRawUnpackUserAuthFailure_pack hbuilt hsize hholds]
      rfl
  | userAuthSuccess userId avatarId =>
      refine ⟨Nat.succ_pos _, fun m size hsize _ hholds => ?_⟩
      have hid : m 0 = 9 := (holds_cons.mp hholds).1
      refine ⟨by rw [hid]; decide, ?_⟩
      rw [unpackMessageCmd, if_neg (by rw [hid]; decide), if_neg (by rw [hid]; decide), if_pos hid,
        vRawUnpackUserAuthSuccess_pack hsize hholds]
      rfl
  | sys cmd =>
      cases cmd with
      | negotiate neg =>
          refine ⟨SysCmd.bytes_pos (.negotiate neg) hbuilt, fun m size hsize hlt hholds => ?_⟩
          have hneg : neg.preference.Built := hbuilt
          have hlength := length_bytes_negotiate hneg
          obtain ⟨id, payId, heq, -⟩ | ⟨neg', heq, -, hid⟩ :=
            @exists_id_of_built (.negotiate neg) hbuilt _ hholds
          · cases heq
          · cases heq
            have hread := vRawUnpackNegotiateCmd_pack hneg (hlength ▸ hsize)
              (lt_trans hlt (Nat.pow_lt_pow_right (by decide) (by decide))) hholds
            have hnot : ∀ id : NegotiateId, id.toByte ≠ 7 ∧ id.toByte ≠ 8 ∧ id.toByte ≠ 9 ∧
                id.toByte ≤ maxSysCmdId := by
              intro id
              cases id <;> decide
            obtain ⟨h7, h8, h9, hle⟩ := hnot neg.id
            refine ⟨hid ▸ hle, ?_⟩
            rw [unpackMessageCmd, hid, if_neg h7, if_neg h8, if_neg h9,
              NegotiateId.ofByte_toByte, Option.map_some, hread]
            simp only [MessageCmd.bytes, MessageCmd.readBack, hlength]
      | ackNak id payId => exact hbuilt.elim
      | refused id => exact hbuilt.elim
      | noFeature id feature => exact hbuilt.elim
      | unknown id => exact hbuilt.elim

/-! ## All commands of a message -/

theorem packMessageCmd_built {cmd : MessageCmd} (hbuilt : cmd.Built) :
    packMessageCmd cmd = some cmd.bytes := by
  cases cmd with
  | userAuthRequest username methodType data => rfl
  | userAuthFailure methods => rfl
  | userAuthSuccess userId avatarId => rfl
  | sys cmd =>
      cases cmd with
      | negotiate neg => exact @packSysCmd_built (.negotiate neg) hbuilt
      | ackNak id payId => exact hbuilt.elim
      | refused id => exact hbuilt.elim
      | noFeature id feature => exact hbuilt.elim
      | unknown id => exact hbuilt.elim

theorem vPackStreamSystemCommands_built {cmds : List MessageCmd}
    (hcount : cmds.length ≤ maxSystemCommandCount) (hbuilt : ∀ cmd ∈ cmds, cmd.Built) :
    vPackStreamSystemCommands cmds = some (cmds.flatMap MessageCmd.bytes) := by
  have hmap := mapM_eq_some_map fun cmd hcmd => packMessageCmd_built (hbuilt cmd hcmd)
  rw [vPackStreamSystemCommands, List.take_of_length_le hcount, hmap, Option.map_some,
    List.flatMap_def]

/-- What the parser makes of the commands of a message. -/
theorem vUnpackMessageSystemCommands_pack {cmds : List MessageCmd} {nodeBytes : List UInt8}
    {buf : Mem} {bufferLen : UInt16} (hcount : cmds.length < maxSystemCommandCount)
    (hbuilt : ∀ cmd ∈ cmds, cmd.Built) (hnode : ∀ b ∈ nodeBytes.head?, maxSysCmdId < b)
    (hlen : bufferLen.toNat = (cmds.flatMap MessageCmd.bytes).length + nodeBytes.length)
    (hholds : Holds buf (cmds.flatMap MessageCmd.bytes ++ nodeBytes)) :
    vUnpackMessageSystemCommands buf bufferLen =
      ((cmds.flatMap MessageCmd.bytes).length, cmds.map MessageCmd.readBack) := by
  have hfst : (cmds.map fun cmd => (cmd.bytes, cmd.readBack)).flatMap Prod.fst =
      cmds.flatMap MessageCmd.bytes := by
    rw [List.flatMap_map]
  have hsnd : (cmds.map fun cmd => (cmd.bytes, cmd.readBack)).map Prod.snd =
      cmds.map MessageCmd.readBack := by
    rw [List.map_map]
    rfl
  have hreads : ∀ piece ∈ cmds.map fun cmd => (cmd.bytes, cmd.readBack),
      SysReads unpackMessageCmd piece.1 piece.2 := by
    intro piece hpiece
    obtain ⟨cmd, hcmd, rfl⟩ := List.mem_map.mp hpiece
    exact MessageCmd.reads (hbuilt cmd hcmd)
  have hroom : (cmds.map fun cmd => (cmd.bytes, cmd.readBack)).length ≤ maxSystemCommandCount - 1 := by
    rw [List.length_map]
    omega
  rw [holds_append] at hholds
  obtain ⟨hcmds, hrest⟩ := hholds
  rw [vUnpackMessageSystemCommands, ← hsnd, ← hfst, ← Nat.zero_add (List.length _)]
  rw [← hfst] at hlen hcmds hrest
  refine unpackSysCmds_pieces hreads hroom bufferLen.toNat_lt (by omega) ?_ (by rwa [shift_zero])
  intro _ hlast
  cases nodeBytes with
  | nil => simp only [List.length_nil] at hlen; omega
  | cons b rest =>
      have hb := (holds_cons.mp hrest).1
      rw [shift_apply, Nat.add_zero] at hb
      rw [Nat.zero_add, hb]
      exact hnode b rfl

theorem map_readBack_message_iff (cmds : List MessageCmd) :
    cmds.map MessageCmd.readBack = cmds ↔ ∀ cmd ∈ cmds, cmd.Readable := by
  calc cmds.map MessageCmd.readBack = cmds
      ↔ cmds.map MessageCmd.readBack = cmds.map id := by rw [List.map_id]
    _ ↔ ∀ cmd ∈ cmds, cmd.readBack = cmd := List.map_inj_left
    _ ↔ ∀ cmd ∈ cmds, cmd.Readable := forall₂_congr fun cmd _ => cmd.readBack_eq_self_iff

/-! ## Any bytes -/

/-- What is stored fits its array. -/
def MessageCmd.Stored : MessageCmd → Prop
  | .userAuthRequest username _ data =>
      username.length ≤ vrsMaxUsernameLength ∧ data.length ≤ vrsMaxDataLength
  | .userAuthFailure methods => methods.length ≤ vrsMaxUaMethodCount
  | _ => True

/-- A parser stays in its bounds: what it stores fits, no byte behind the buffer matters,
and it returns no more than the size of the buffer. -/
structure ParserBounded (parse : Mem → ℕ → ℕ × MessageCmd) (buf : Mem) (bufferSize : ℕ) :
    Prop where
  stored : (parse buf bufferSize).2.Stored
  reads : ∀ buf', Agree bufferSize buf buf' → parse buf' bufferSize = parse buf bufferSize
  returned : (parse buf bufferSize).1 ≤ bufferSize

theorem request_stored_returned (buf : Mem) (bufferSize : ℕ) :
    (vRawUnpackUserAuthRequest buf bufferSize).2.Stored ∧
      (vRawUnpackUserAuthRequest buf bufferSize).1 ≤ bufferSize := by
  have hrefused : ∀ n ≤ bufferSize, (n, refusedRequest).2.Stored ∧ (n, refusedRequest).1 ≤ bufferSize :=
    fun n hn => ⟨⟨Nat.zero_le _, Nat.zero_le _⟩, hn⟩
  unfold vRawUnpackUserAuthRequest
  dsimp only
  generalize vnpRawUnpackUint8 (buf.shift 1) = length
  generalize vnpRawUnpackUint8 (buf.shift 2) = usernameLen
  generalize vnpRawUnpackUint8 (buf.shift (4 + usernameLen)) = passwordLen
  generalize buf (3 + usernameLen) = methodType
  by_cases htwo : bufferSize < 2
  · rw [if_pos htwo]
    exact hrefused _ le_rfl
  rw [if_neg htwo]
  by_cases hlong : bufferSize < length
  · rw [if_pos hlong]
    exact hrefused _ le_rfl
  rw [if_neg hlong]
  have hle := Nat.le_of_not_lt hlong
  by_cases hfive : length < 5
  · rw [if_pos hfive]
    exact hrefused _ hle
  rw [if_neg hfive]
  by_cases hzero : usernameLen = 0
  · rw [if_pos hzero]
    exact hrefused _ hle
  rw [if_neg hzero]
  by_cases hcut : length < 3 + usernameLen + 1
  · rw [if_pos hcut]
    exact hrefused _ hle
  rw [if_neg hcut]
  by_cases hname : vrsMaxUsernameLength < usernameLen
  · rw [if_pos hname]
    exact hrefused _ hle
  rw [if_neg hname]
  have hstored : ((List.range usernameLen).map fun i => buf (3 + i)).length ≤
      vrsMaxUsernameLength := by
    rw [List.length_map, List.length_range]
    exact Nat.le_of_not_lt hname
  by_cases hmethod : methodType = uaMethodPassword
  · rw [if_pos hmethod]
    by_cases hshort : length < 3 + usernameLen + 3
    · rw [if_pos hshort]
      exact hrefused _ hle
    rw [if_neg hshort]
    by_cases hempty : passwordLen = 0
    · rw [if_pos hempty]
      exact hrefused _ (by omega)
    rw [if_neg hempty]
    by_cases hover : length < 3 + usernameLen + 2 + passwordLen
    · rw [if_pos hover]
      exact hrefused _ hle
    rw [if_neg hover]
    by_cases hpassword : vrsMaxDataLength < passwordLen
    · rw [if_pos hpassword]
      exact hrefused _ hle
    rw [if_neg hpassword]
    refine ⟨⟨hstored, ?_⟩, hle⟩
    rw [List.length_map, List.length_range]
    exact Nat.le_of_not_lt hpassword
  · rw [if_neg hmethod]
    exact ⟨⟨hstored, Nat.zero_le _⟩, hle⟩

/-- Each byte is read behind a test that it lies in the command, and the command lies in
the buffer. -/
theorem request_reads {buf buf' : Mem} {bufferSize : ℕ} (hagree : Agree bufferSize buf buf') :
    vRawUnpackUserAuthRequest buf' bufferSize = vRawUnpackUserAuthRequest buf bufferSize := by
  unfold vRawUnpackUserAuthRequest
  dsimp only
  by_cases htwo : bufferSize < 2
  · rw [if_pos htwo, if_pos htwo]
  have hlength : vnpRawUnpackUint8 (buf'.shift 1) = vnpRawUnpackUint8 (buf.shift 1) :=
    congrArg UInt8.toNat (hagree 1 (by omega)).symm
  rw [if_neg htwo, if_neg htwo, hlength]
  by_cases hlong : bufferSize < vnpRawUnpackUint8 (buf.shift 1)
  · rw [if_pos hlong, if_pos hlong]
  rw [if_neg hlong, if_neg hlong]
  by_cases hfive : vnpRawUnpackUint8 (buf.shift 1) < 5
  · rw [if_pos hfive, if_pos hfive]
  have hname : vnpRawUnpackUint8 (buf'.shift 2) = vnpRawUnpackUint8 (buf.shift 2) :=
    congrArg UInt8.toNat (hagree 2 (by omega)).symm
  rw [if_neg hfive, if_neg hfive, hname]
  by_cases hzero : vnpRawUnpackUint8 (buf.shift 2) = 0
  · rw [if_pos hzero, if_pos hzero]
  rw [if_neg hzero, if_neg hzero]
  by_cases hcut : vnpRawUnpackUint8 (buf.shift 1) < 3 + vnpRawUnpackUint8 (buf.shift 2) + 1
  · rw [if_pos hcut, if_pos hcut]
  rw [if_neg hcut, if_neg hcut]
  have hstr : ((List.range (vnpRawUnpackUint8 (buf.shift 2))).map fun i => buf' (3 + i)) =
      (List.range (vnpRawUnpackUint8 (buf.shift 2))).map fun i => buf (3 + i) := by
    refine List.map_congr_left fun i hi => ?_
    rw [List.mem_range] at hi
    exact (hagree _ (by omega)).symm
  have hmethod : buf' (3 + vnpRawUnpackUint8 (buf.shift 2)) =
      buf (3 + vnpRawUnpackUint8 (buf.shift 2)) := (hagree _ (by omega)).symm
  rw [hstr, hmethod]
  by_cases hpassword : vnpRawUnpackUint8 (buf.shift 1) < 3 + vnpRawUnpackUint8 (buf.shift 2) + 3
  · rw [if_pos hpassword, if_pos hpassword]
  rw [if_neg hpassword, if_neg hpassword]
  have hsize : vnpRawUnpackUint8 (buf'.shift (4 + vnpRawUnpackUint8 (buf.shift 2))) =
      vnpRawUnpackUint8 (buf.shift (4 + vnpRawUnpackUint8 (buf.shift 2))) :=
    congrArg UInt8.toNat (hagree _ (by omega)).symm
  rw [hsize]
  by_cases hfits : vnpRawUnpackUint8 (buf.shift 1) < 3 + vnpRawUnpackUint8 (buf.shift 2) + 2 +
      vnpRawUnpackUint8 (buf.shift (4 + vnpRawUnpackUint8 (buf.shift 2)))
  · rw [if_pos hfits, if_pos hfits]
  rw [if_neg hfits, if_neg hfits]
  have hdata : ((List.range (vnpRawUnpackUint8 (buf.shift (4 + vnpRawUnpackUint8 (buf.shift 2))))).map
      fun i => buf' (5 + vnpRawUnpackUint8 (buf.shift 2) + i)) =
      (List.range (vnpRawUnpackUint8 (buf.shift (4 + vnpRawUnpackUint8 (buf.shift 2))))).map
        fun i => buf (5 + vnpRawUnpackUint8 (buf.shift 2) + i) := by
    refine List.map_congr_left fun i hi => ?_
    rw [List.mem_range] at hi
    exact (hagree _ (by omega)).symm
  rw [hdata]

theorem request_bounded (buf : Mem) (bufferSize : ℕ) :
    ParserBounded vRawUnpackUserAuthRequest buf bufferSize :=
  ⟨(request_stored_returned buf bufferSize).1, fun _ => request_reads,
    (request_stored_returned buf bufferSize).2⟩

theorem success_bounded (buf : Mem) (bufferSize : ℕ) :
    ParserBounded vRawUnpackUserAuthSuccess buf bufferSize := by
  by_cases height : bufferSize < 8
  · have hres : ∀ buf, vRawUnpackUserAuthSuccess buf bufferSize =
        (bufferSize, .userAuthSuccess vrsReservedUserId vrsReservedAvatarId) := fun _ => if_pos height
    refine ⟨?_, fun buf' _ => by rw [hres, hres], ?_⟩
    · rw [hres]
      exact trivial
    · rw [hres]
  · refine ⟨?_, fun buf' hagree => ?_, ?_⟩
    · rw [vRawUnpackUserAuthSuccess, if_neg height]
      split <;> exact trivial
    · have hlength : vnpRawUnpackUint8 (buf'.shift 1) = vnpRawUnpackUint8 (buf.shift 1) :=
        congrArg UInt8.toNat (hagree 1 (by omega)).symm
      have huser : vnpRawUnpackUint16 (buf'.shift 2) = vnpRawUnpackUint16 (buf.shift 2) :=
        (vnpRawUnpackUint16_agree (hagree.shift 2) (by omega)).symm
      have havatar : vnpRawUnpackUint32 (buf'.shift 4) = vnpRawUnpackUint32 (buf.shift 4) :=
        (vnpRawUnpackUint32_agree (hagree.shift 4) (by omega)).symm
      rw [vRawUnpackUserAuthSuccess, vRawUnpackUserAuthSuccess, hlength, huser, havatar]
    · rw [vRawUnpackUserAuthSuccess, if_neg height]
      split <;> exact Nat.le_of_not_lt height

/-- The number of methods the parser takes from the length. -/
def methodCount (buf : Mem) : ℕ := min (((buf 1).toNat + 2 ^ 8 - 2) % 2 ^ 8) vrsMaxUaMethodCount

theorem vRawUnpackUserAuthFailure_eq {buf : Mem} {bufferSize : ℕ} (htwo : 2 ≤ bufferSize)
    (hlength : (buf 1).toNat ≤ bufferSize) :
    vRawUnpackUserAuthFailure buf bufferSize =
      ((buf 1).toNat, .userAuthFailure ((List.range (methodCount buf)).map fun i => buf (2 + i))) := by
  rw [vRawUnpackUserAuthFailure, if_neg (Nat.not_lt.mpr htwo)]
  exact if_neg (Nat.not_lt.mpr hlength)

theorem failure_bounded_iff (buf : Mem) (bufferSize : ℕ) :
    ParserBounded vRawUnpackUserAuthFailure buf bufferSize ↔
      ¬ (bufferSize = 2 ∧ (buf 1).toNat < 2) := by
  have hcount : methodCount buf ≤ 1 := Nat.min_le_right _ _
  constructor
  · rintro h ⟨rfl, hshort⟩
    -- the number wraps, and what stands behind the buffer becomes a method
    have hone : methodCount buf = 1 := by
      rw [methodCount, vrsMaxUaMethodCount]
      omega
    have hlast : ∀ b, b = buf 2 := by
      intro b
      have hone' : methodCount (buf.set 2 b) = 1 := by
        rw [methodCount, set_of_ne buf (by omega)]
        exact hone
      have hsame := h.reads (buf.set 2 b) (agree_set buf le_rfl b)
      have hself := @vRawUnpackUserAuthFailure_eq buf 2 le_rfl (by omega)
      have hset := @vRawUnpackUserAuthFailure_eq (buf.set 2 b) 2 le_rfl
        (by rw [set_of_ne buf (by omega)]; omega)
      rw [hset, hself, hone, hone'] at hsame
      have hmethods := MessageCmd.userAuthFailure.inj (Prod.mk.inj hsame).2
      have hhead : (buf.set 2 b) 2 = buf 2 := (List.cons.inj hmethods).1
      rwa [set_self] at hhead
    exact absurd ((hlast 0).trans (hlast 1).symm) (by decide)
  · intro hgood
    by_cases htwo : bufferSize < 2
    · have hres : ∀ buf, vRawUnpackUserAuthFailure buf bufferSize = (bufferSize, .userAuthFailure []) :=
        fun _ => if_pos htwo
      refine ⟨?_, fun buf' _ => by rw [hres, hres], ?_⟩
      · rw [hres]
        exact Nat.zero_le _
      · rw [hres]
    have hsame : ∀ buf', Agree bufferSize buf buf' → buf' 1 = buf 1 :=
      fun buf' hagree => (hagree 1 (by omega)).symm
    by_cases hlong : bufferSize < (buf 1).toNat
    · have hres : ∀ buf', Agree bufferSize buf buf' →
          vRawUnpackUserAuthFailure buf' bufferSize = (bufferSize, .userAuthFailure []) := by
        intro buf' hagree
        rw [vRawUnpackUserAuthFailure, if_neg htwo]
        refine if_pos ?_
        rw [vnpRawUnpackUint8, shift_apply, hsame buf' hagree]
        exact hlong
      have hself := hres buf (.refl _ _)
      refine ⟨?_, fun buf' hagree => by rw [hres buf' hagree, hself], ?_⟩
      · rw [hself]
        exact Nat.zero_le _
      · rw [hself]
    have hself := vRawUnpackUserAuthFailure_eq (Nat.le_of_not_lt htwo) (Nat.le_of_not_lt hlong)
    refine ⟨?_, fun buf' hagree => ?_, ?_⟩
    · rw [hself]
      show ((List.range (methodCount buf)).map fun i => buf (2 + i)).length ≤ 1
      rwa [List.length_map, List.length_range]
    · have hcount' : methodCount buf' = methodCount buf := by
        rw [methodCount, methodCount, hsame buf' hagree]
      rw [hself, vRawUnpackUserAuthFailure_eq (Nat.le_of_not_lt htwo)
        (by rw [hsame buf' hagree]; omega), hcount', hsame buf' hagree]
      congr 2
      refine List.map_congr_left fun i hi => ?_
      rw [List.mem_range] at hi
      refine (hagree (2 + i) ?_).symm
      -- a method is read only where the length or the buffer has room for it
      unfold methodCount vrsMaxUaMethodCount at hi
      omega
    · rw [hself]
      exact Nat.le_of_not_lt hlong

/-- The three parsers stay in their bounds. -/
def UserAuthBounded (buf : Mem) (bufferSize : ℕ) : Prop :=
  ParserBounded vRawUnpackUserAuthRequest buf bufferSize ∧
    ParserBounded vRawUnpackUserAuthFailure buf bufferSize ∧
      ParserBounded vRawUnpackUserAuthSuccess buf bufferSize

/-- The system commands of a message come back, whatever node commands follow. -/
def MessageComesBack (cmds : List MessageCmd) (nodeBytes : List UInt8) : Prop :=
  ∃ bytes, vPackStreamSystemCommands cmds = some bytes ∧
    ∀ (buf : Mem) (bufferLen : UInt16), Holds buf (bytes ++ nodeBytes) →
      bufferLen.toNat = bytes.length + nodeBytes.length →
        vUnpackMessageSystemCommands buf bufferLen = (bytes.length, cmds)

/-- **User authentication on the wire.**  The commands of a message that fits its length
come back exactly if a place is left in the array and each negotiate command comes back; the
parsers stay in their bounds exactly if the buffer is not a header alone with a length below
the size of the header. -/
theorem userAuth_kept_iff (cmds : List MessageCmd) (nodeBytes : List UInt8)
    (hcount : cmds.length ≤ maxSystemCommandCount) (hbuilt : ∀ cmd ∈ cmds, cmd.Built)
    (hnode : ∀ b ∈ nodeBytes.head?, maxSysCmdId < b)
    (hfits : (cmds.flatMap MessageCmd.bytes).length + nodeBytes.length < 2 ^ 16) :
    (MessageComesBack cmds nodeBytes ↔
      cmds.length < maxSystemCommandCount ∧ ∀ cmd ∈ cmds, cmd.Readable) ∧
    ∀ (buf : Mem) (bufferSize : ℕ),
      UserAuthBounded buf bufferSize ↔ ¬ (bufferSize = 2 ∧ (buf 1).toNat < 2) := by
  have hpack := vPackStreamSystemCommands_built hcount hbuilt
  constructor
  · constructor
    · rintro ⟨bytes, hbytes, hall⟩
      obtain rfl := Option.some.inj (hpack.symm.trans hbytes)
      have hlen : (UInt16.ofNat ((cmds.flatMap MessageCmd.bytes).length + nodeBytes.length)).toNat =
          (cmds.flatMap MessageCmd.bytes).length + nodeBytes.length := by
        rw [UInt16.toNat_ofNat']
        exact Nat.mod_eq_of_lt hfits
      have hback := hall _ _ (holds_ofBytes _) hlen
      have hlt : cmds.length < maxSystemCommandCount := by
        have hle := length_unpackSysCmds_le unpackMessageCmd (fun id => .sys (.unknown id))
          (ofBytes (cmds.flatMap MessageCmd.bytes ++ nodeBytes))
          (UInt16.ofNat ((cmds.flatMap MessageCmd.bytes).length + nodeBytes.length)).toNat
          (maxSystemCommandCount - 1) 0
        rw [vUnpackMessageSystemCommands] at hback
        rw [hback] at hle
        exact Nat.lt_of_le_pred (by decide) hle
      rw [vUnpackMessageSystemCommands_pack hlt hbuilt hnode hlen (holds_ofBytes _)] at hback
      exact ⟨hlt, (map_readBack_message_iff cmds).mp (Prod.mk.inj hback).2⟩
    · rintro ⟨hlt, hreadable⟩
      refine ⟨_, hpack, fun buf bufferLen hholds hlen => ?_⟩
      rw [vUnpackMessageSystemCommands_pack hlt hbuilt hnode hlen hholds,
        (map_readBack_message_iff cmds).mpr hreadable]
  · intro buf bufferSize
    rw [← failure_bounded_iff]
    exact ⟨fun h => h.2.1, fun h => ⟨request_bounded _ _, h, success_bounded _ _⟩⟩

/-- A request with a password behind a negotiated token. -/
theorem userAuth_kept_password :
    MessageComesBack
      [.sys (.negotiate ⟨.confirmL, .string8 .token [[0x61, 0x62, 0x63]]⟩),
        .userAuthRequest [0x6A, 0x6F, 0x65] uaMethodPassword [0x70, 0x77], .userAuthFailure [2],
        .userAuthSuccess 1001 65536] [32] := by
  have hkept := (userAuth_kept_iff
    [.sys (.negotiate ⟨.confirmL, .string8 .token [[0x61, 0x62, 0x63]]⟩),
      .userAuthRequest [0x6A, 0x6F, 0x65] uaMethodPassword [0x70, 0x77], .userAuthFailure [2],
      .userAuthSuccess 1001 65536] [32] (by decide)
    (by simp [MessageCmd.Built, Preference.Built, maxFtrValueCount, vrsString8MaxSize,
      vrsMaxUsernameLength, vrsMaxDataLength, vrsMaxUaMethodCount])
    (by simp [maxSysCmdId]) (by decide +kernel)).1
  refine hkept.mpr ⟨by decide, ?_⟩
  have hlen3 : (NegotiateCmd.mk .confirmL (.string8 .token [[0x61, 0x62, 0x63]])).headerLen = 3 := by
    decide
  simp [MessageCmd.Readable, SysCmd.Readable, hlen3]

/-- USER_AUTH_FAILURE with the length 0, and nothing behind the length. -/
theorem not_userAuth_bounded : ¬ ∀ (buf : Mem) (bufferSize : ℕ), UserAuthBounded buf bufferSize := by
  intro hall
  have hagree : ∀ i < 2, ofBytes [8, 0] i = ofBytes [8, 0, 9] i := by decide
  have hsame := (hall (ofBytes [8, 0]) 2).2.1.reads (ofBytes [8, 0, 9]) hagree
  have hleft : vRawUnpackUserAuthFailure (ofBytes [8, 0, 9]) 2 = (0, .userAuthFailure [9]) := by
    decide +kernel
  have hright : vRawUnpackUserAuthFailure (ofBytes [8, 0]) 2 = (0, .userAuthFailure [0]) := by
    decide +kernel
  rw [hleft, hright] at hsame
  exact absurd hsame (by decide)

end Verse
