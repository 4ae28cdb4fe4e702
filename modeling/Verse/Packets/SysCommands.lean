import Verse.Commands.Unpack
import Verse.History.AckNak

/-!
# The header and the system commands of a packet

`v_network.c`, `v_sys_commands.c`, `v_ack_nak.c` and `v_negotiate.c`.  A packet
begins with a header of 16 bytes; system commands follow, and then node commands,
the first byte of which is above `MAX_SYS_CMD_ID`.

As with node commands the buffer is what can be read through the pointer.  Counters
of the type `unsigned short` are taken modulo `2 ^ 16`, and `count` of a negotiate
command modulo `2 ^ 8`.  The array `value` of a received negotiate command has room
for `MAX_FTR_VALUE_COUNT` values, which the source does not check; here every value
that is written is kept.
-/

namespace Verse

open Lib

/-! ## The header -/

/-- `VERSE_PACKET_HEADER_SIZE`. -/
def versePacketHeaderSize : ℕ := 16

/-- `VPacketHeader`. -/
structure VPacketHeader where
  version : UInt8
  flags : UInt8
  window : UInt16
  payloadId : UInt32
  ackNakId : UInt32
  ankId : UInt32
  deriving DecidableEq, Repr

/-- `v_pack_packet_header`. -/
def vPackPacketHeader (header : VPacketHeader) : List UInt8 :=
  vnpRawPackUint8 ((header.version <<< 4) &&& 0xF0).toNat ++ vnpRawPackUint8 header.flags.toNat ++
    vnpRawPackUint16 header.window.toNat ++ vnpRawPackUint32 header.payloadId.toNat ++
    vnpRawPackUint32 header.ackNakId.toNat ++ vnpRawPackUint32 header.ankId.toNat

/-- `v_unpack_packet_header`; `none` stands for -1. -/
def vUnpackPacketHeader (buf : Mem) (bufferLen : ℕ) : Option VPacketHeader :=
  if bufferLen < versePacketHeaderSize then none
  else
    some
      { version := (buf 0 >>> 4) &&& 0x0F
        flags := buf 1
        window := UInt16.ofNat (vnpRawUnpackUint16 (buf.shift 2))
        payloadId := UInt32.ofNat (vnpRawUnpackUint32 (buf.shift 4))
        ackNakId := UInt32.ofNat (vnpRawUnpackUint32 (buf.shift 8))
        ankId := UInt32.ofNat (vnpRawUnpackUint32 (buf.shift 12)) }

/-! ## System commands -/

/-- `MAX_SYS_CMD_ID`. -/
def maxSysCmdId : UInt8 := 31

/-- `MAX_SYSTEM_COMMAND_COUNT`. -/
def maxSystemCommandCount : ℕ := 64

/-- `MAX_FTR_VALUE_COUNT`. -/
def maxFtrValueCount : ℕ := 5

/-- `CMD_CHANGE_L_ID`, `CMD_CHANGE_R_ID`, `CMD_CONFIRM_L_ID` and `CMD_CONFIRM_R_ID`. -/
inductive NegotiateId where
  | changeL
  | changeR
  | confirmL
  | confirmR
  deriving DecidableEq, Repr

/-- The features with values of one byte: `FTR_FC_ID`, `FTR_CC_ID`,
`FTR_RWIN_SCALE` and `FTR_CMD_COMPRESS`. -/
inductive ByteFtr where
  | fc
  | cc
  | rwinScale
  | cmdCompress
  deriving DecidableEq, Repr

/-- The features with strings: `FTR_HOST_URL`, `FTR_TOKEN`, `FTR_DED`,
`FTR_CLIENT_NAME` and `FTR_CLIENT_VERSION`. -/
inductive StringFtr where
  | hostUrl
  | token
  | ded
  | clientName
  | clientVersion
  deriving DecidableEq, Repr

/-- The feature of a negotiate command and its preference list; the feature says
which member of the union `value` is used.  A `real32` is given by its bits. -/
inductive Preference where
  | byte (feature : ByteFtr) (values : List UInt8)
  | string8 (feature : StringFtr) (values : List (List UInt8))
  | fps (values : List UInt32)
  deriving DecidableEq, Repr

/-- `Negotiate_Cmd`. -/
structure NegotiateCmd where
  id : NegotiateId
  preference : Preference
  deriving DecidableEq, Repr

/-- `VSystemCommands`, as far as datagrams have them.  The last three are only
found in received packets: a negotiate command the length of which is refused,
so that nothing but its id and the count 0 is stored; one with a reserved or
unknown feature, the count of which is 0; and a command that is skipped. -/
inductive SysCmd where
  | ackNak (id : AckNakId) (payId : UInt32)
  | negotiate (cmd : NegotiateCmd)
  | refused (id : NegotiateId)
  | noFeature (id : NegotiateId) (feature : UInt8)
  | unknown (id : UInt8)
  deriving DecidableEq, Repr

/-- The values of `CMD_ACK_ID` and `CMD_NAK_ID`. -/
def AckNakId.toByte : AckNakId → UInt8
  | .ack => 1
  | .nak => 2

/-- The values of the ids of negotiate commands. -/
def NegotiateId.toByte : NegotiateId → UInt8
  | .changeL => 3
  | .changeR => 4
  | .confirmL => 5
  | .confirmR => 6

/-- The values of the feature ids. -/
def ByteFtr.toByte : ByteFtr → UInt8
  | .fc => 1
  | .cc => 2
  | .rwinScale => 6
  | .cmdCompress => 8

@[inherit_doc ByteFtr.toByte]
def StringFtr.toByte : StringFtr → UInt8
  | .hostUrl => 3
  | .token => 4
  | .ded => 5
  | .clientName => 9
  | .clientVersion => 10

/-- `FTR_FPS`. -/
def ftrFps : UInt8 := 7

/-! ## Packing -/

/-- `v_add_negotiate_cmd` with the given values, which come as C strings where they
are strings. -/
def vAddNegotiateCmd (id : NegotiateId) : Preference → NegotiateCmd
  | .byte feature values => ⟨id, .byte feature values⟩
  | .string8 feature values =>
      ⟨id, .string8 feature
        (values.map fun str => (str.takeWhile (· ≠ 0)).take vrsString8MaxSize)⟩
  | .fps values => ⟨id, .fps values⟩

/-- `v_raw_pack_ack_nak_cmd`. -/
def vRawPackAckNakCmd (id : AckNakId) (payId : UInt32) : List UInt8 :=
  vnpRawPackUint8 id.toByte.toNat ++ vnpRawPackUint32 payId.toNat

/-- The id of the feature. -/
def Preference.feature : Preference → UInt8
  | .byte feature _ => feature.toByte
  | .string8 feature _ => feature.toByte
  | .fps _ => ftrFps

/-- The number of bytes the values take according to their lengths. -/
def Preference.size : Preference → ℕ
  | .byte _ values => values.length
  | .string8 _ values => (values.map fun str => 1 + str.length).sum
  | .fps values => values.length * 4

/-- The loop that packs the values.  A string is packed up to its first zero. -/
def Preference.pack : Preference → List UInt8
  | .byte _ values => values.flatMap fun v => vnpRawPackUint8 v.toNat
  | .string8 _ values => values.flatMap fun str => vnpRawPackString8 (str.takeWhile (· ≠ 0))
  | .fps values => values.flatMap fun v => vnpRawPackUint32 v.toNat

/-- The length of a negotiate command; a long one takes two bytes more. -/
def NegotiateCmd.length (cmd : NegotiateCmd) : ℕ :=
  let length := 1 + 1 + 1 + cmd.preference.size
  if 0xFF ≤ length then length + 2 else length

/-- `v_raw_pack_negotiate_cmd`; `none` is the failed assertion on the length. -/
def vRawPackNegotiateCmd (cmd : NegotiateCmd) : Option (List UInt8) :=
  let bytes := vnpRawPackUint8 cmd.id.toByte.toNat ++ vCmdPackLen cmd.length ++
    vnpRawPackUint8 cmd.preference.feature.toNat ++ cmd.preference.pack
  if bytes.length = cmd.length then some bytes else none

/-- One pass of the loop of `v_pack_dgram_system_commands`.  The feature of a
command that was not read is not one that can be packed. -/
def packSysCmd : SysCmd → Option (List UInt8)
  | .ackNak id payId => some (vRawPackAckNakCmd id payId)
  | .negotiate cmd => vRawPackNegotiateCmd cmd
  | .refused _ | .noFeature _ _ => none
  | .unknown _ => some []

/-- `v_pack_dgram_system_commands`; the list is what stands in `sys_cmd` before
`CMD_RESERVED_ID`. -/
def vPackDgramSystemCommands (cmds : List SysCmd) : Option (List UInt8) :=
  ((cmds.take maxSystemCommandCount).mapM packSysCmd).map List.flatten

/-! ## Unpacking -/

/-- The negotiate command with the given id byte. -/
def NegotiateId.ofByte (id : UInt8) : Option NegotiateId :=
  if id = 3 then some .changeL
  else if id = 4 then some .changeR
  else if id = 5 then some .confirmL
  else if id = 6 then some .confirmR
  else none

/-- The feature with the given id byte and without values. -/
def Preference.ofByte (feature : UInt8) : Option Preference :=
  if feature = 1 then some (.byte .fc [])
  else if feature = 2 then some (.byte .cc [])
  else if feature = 3 then some (.string8 .hostUrl [])
  else if feature = 4 then some (.string8 .token [])
  else if feature = 5 then some (.string8 .ded [])
  else if feature = 6 then some (.byte .rwinScale [])
  else if feature = 7 then some (.fps [])
  else if feature = 8 then some (.byte .cmdCompress [])
  else if feature = 9 then some (.string8 .clientName [])
  else if feature = 10 then some (.string8 .clientVersion [])
  else none

/-- `vnp_raw_unpack_string8_to_string8`: the bytes gone over and what `data` holds
afterwards. -/
def vnpRawUnpackString8ToString8 (buf : Mem) (bufferSize : ℕ) (data : List UInt8) :
    ℕ × List UInt8 :=
  if bufferSize < 2 then (bufferSize, data)
  else
    let length := vnpRawUnpackUint8 buf
    let length := if bufferSize < length then bufferSize else length
    (1 + length, (List.range length).map fun i => buf (1 + i))

/-- The loop that counts the strings of a negotiate command; `pos` is
`buffer_pos + str_len`.  Every pass goes over a byte, so `limit` passes are
enough. -/
def countStrings (buf : Mem) (limit : ℕ) : ℕ → ℕ → ℕ
  | 0, _ => 0
  | fuel + 1, pos =>
      if pos < limit then 1 + countStrings buf limit fuel (pos + (1 + vnpRawUnpackUint8 (buf.shift pos)))
      else 0

/-- The loop over `count` values of one kind, each read by `read`. -/
def unpackValues {α : Type} (read : ℕ → ℕ × α) : ℕ → ℕ → List α
  | 0, _ => []
  | count + 1, pos => (read pos).2 :: unpackValues read count ((pos + (read pos).1) % 2 ^ 16)

/-- The values of a negotiate command of `cmdLength` bytes. -/
def Preference.unpack (buf : Mem) (bufferSize cmdLength headerLen pos : ℕ) :
    Preference → Preference
  | .byte feature _ =>
      .byte feature
        (unpackValues (fun pos => (1, buf pos)) ((cmdLength - headerLen) % 2 ^ 8) pos)
  | .string8 feature _ =>
      -- the limit is the size of the values and not the position behind them
      let limit := cmdLength - headerLen
      .string8 feature
        (unpackValues
          (fun pos => vnpRawUnpackString8ToString8 (buf.shift pos) (sub64 bufferSize pos) [])
          (countStrings buf limit limit pos % 2 ^ 8) pos)
  | .fps _ =>
      .fps
        (unpackValues (fun pos => (4, UInt32.ofNat (vnpRawUnpackUint32 (buf.shift pos))))
          ((cmdLength - headerLen) / 4 % 2 ^ 8) pos)

/-- `v_raw_unpack_negotiate_cmd`, for a command with the given id. -/
def vRawUnpackNegotiateCmd (id : NegotiateId) (buf : Mem) (bufferSize : ℕ) : ℕ × SysCmd :=
  let (lenSize, cmdLength, _) := vCmdUnpackLen (buf.shift 1)
  let headerLen := 1 + lenSize + 1
  if bufferSize < cmdLength then (bufferSize, .refused id)
  else if cmdLength < headerLen then (bufferSize, .refused id)
  else
    let feature := buf (1 + lenSize)
    match Preference.ofByte feature with
    | none => (cmdLength, .noFeature id feature)
    | some preference =>
        (cmdLength,
          .negotiate ⟨id, preference.unpack buf bufferSize cmdLength headerLen headerLen⟩)

/-- `v_raw_unpack_ack_nak_cmd`, for a command with the given id. -/
def vRawUnpackAckNakCmd (id : AckNakId) (buf : Mem) : ℕ × SysCmd :=
  (1 + 4, .ackNak id (UInt32.ofNat (vnpRawUnpackUint32 (buf.shift 1))))

/-- The switch over the ids of the system commands of a packet: the bytes gone
over, where they are added to the position, and the command. -/
def unpackPacketCmd (buf : Mem) (bufferSize : ℕ) : Option (ℕ × SysCmd) :=
  if buf 0 = 1 then some (vRawUnpackAckNakCmd .ack buf)
  else if buf 0 = 2 then some (vRawUnpackAckNakCmd .nak buf)
  else (NegotiateId.ofByte (buf 0)).map fun id => vRawUnpackNegotiateCmd id buf bufferSize

/-- The loop over the system commands of a packet or of a message; `room` passes
are left.  `unpackCmd` is the switch over the ids, and what it does not know is
stored as `unknown`. -/
def unpackSysCmds {α : Type} (unpackCmd : Mem → ℕ → Option (ℕ × α)) (unknown : UInt8 → α)
    (buf : Mem) (bufferLen : ℕ) : ℕ → ℕ → ℕ × List α
  | 0, pos => (pos, [])
  | room + 1, pos =>
      if pos < bufferLen then
        if maxSysCmdId < buf pos then (pos, [])
        else
          match unpackCmd (buf.shift pos) (bufferLen - pos) with
          | some (size, cmd) =>
              let (pos, cmds) :=
                unpackSysCmds unpackCmd unknown buf bufferLen room ((pos + size) % 2 ^ 16)
              (pos, cmd :: cmds)
          | none =>
              -- an unknown command is skipped, by what its second byte says
              let length := vnpRawUnpackUint8 (buf.shift (pos + 1))
              let next := if length < bufferLen - pos then (pos + length) % 2 ^ 16 else bufferLen
              let (pos', cmds) := unpackSysCmds unpackCmd unknown buf bufferLen room next
              (pos', unknown (buf pos) :: cmds)
      else (pos, [])

/-- `v_unpack_packet_system_commands`: the position that is reached and the
commands that are stored; `none` stands for -1. -/
def vUnpackPacketSystemCommands (buf : Mem) (bufferLen : UInt16) : Option (ℕ × List SysCmd) :=
  if bufferLen.toNat < versePacketHeaderSize then none
  else if bufferLen.toNat = versePacketHeaderSize then some (versePacketHeaderSize, [])
  else
    some (unpackSysCmds unpackPacketCmd .unknown buf bufferLen.toNat (maxSystemCommandCount - 1)
      versePacketHeaderSize)

end Verse
