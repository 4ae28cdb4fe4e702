import Verse.Packets.SysCommands

/-!
# Messages

`v_network.c`, `v_sys_commands.c` and `v_user_auth_*.c`.  What is sent over a
stream connection are messages: a header of four bytes, system commands, and in
the state STREAM_OPEN also node commands.  The loop over the system commands is
the one of packets (`unpackSysCmds`), with other ids.

A `char` array that holds a string is given by the bytes that were written to it;
`cString` is what the functions of the C library take for the string.
-/

namespace Verse

open Lib

/-- `VERSE_MESSAGE_HEADER_SIZE`. -/
def verseMessageHeaderSize : ℕ := 4

/-- The string in front of the first zero. -/
def cString (bytes : List UInt8) : List UInt8 := bytes.takeWhile (· ≠ 0)

/-- The header of `VMessage`. -/
structure VMessageHeader where
  version : UInt8
  len : UInt16
  deriving DecidableEq, Repr

/-- `v_pack_message_header`. -/
def vPackMessageHeader (header : VMessageHeader) : List UInt8 :=
  vnpRawPackUint8 ((header.version <<< 4) &&& 0xF0).toNat ++ vnpRawPackUint8 0 ++
    vnpRawPackUint16 header.len.toNat

/-- `v_unpack_message_header`; `none` stands for -1. -/
def vUnpackMessageHeader (buf : Mem) (bufferLen : ℕ) : Option VMessageHeader :=
  if bufferLen < verseMessageHeaderSize then none
  else
    some
      { version := (buf 0 >>> 4) &&& 0x0F
        len := UInt16.ofNat (vnpRawUnpackUint16 (buf.shift 2)) }

/-! ## System commands -/

/-- `VRS_UA_METHOD_RESERVED`. -/
def uaMethodReserved : UInt8 := 0

/-- `VRS_UA_METHOD_NONE`. -/
def uaMethodNone : UInt8 := 1

/-- `VRS_UA_METHOD_PASSWORD`. -/
def uaMethodPassword : UInt8 := 2

/-- `VRS_MAX_USERNAME_LENGTH`. -/
def vrsMaxUsernameLength : ℕ := 64

/-- `VRS_MAX_DATA_LENGTH`. -/
def vrsMaxDataLength : ℕ := 128

/-- `VRS_MAX_UA_METHOD_COUNT`. -/
def vrsMaxUaMethodCount : ℕ := 1

/-- `VRS_RESERVED_USER_ID`. -/
def vrsReservedUserId : UInt16 := 0

/-- `VRS_RESERVED_AVATAR_ID`. -/
def vrsReservedAvatarId : UInt32 := 0

/-- `VSystemCommands`, as far as messages have them: the commands of user
authentication, and those they have in common with datagrams. -/
inductive MessageCmd where
  | userAuthRequest (username : List UInt8) (methodType : UInt8) (data : List UInt8)
  | userAuthFailure (methods : List UInt8)
  | userAuthSuccess (userId : UInt16) (avatarId : UInt32)
  | sys (cmd : SysCmd)
  deriving DecidableEq, Repr

/-- A request that is refused: the user name is empty and the method is reserved. -/
def refusedRequest : MessageCmd := .userAuthRequest [] uaMethodReserved []

/-- `v_raw_unpack_user_auth_request`: the bytes gone over and the command. -/
def vRawUnpackUserAuthRequest (buf : Mem) (bufferSize : ℕ) : ℕ × MessageCmd :=
  if bufferSize < 2 then (bufferSize, refusedRequest)
  else
    let length := vnpRawUnpackUint8 (buf.shift 1)
    if bufferSize < length then (bufferSize, refusedRequest)
    else if length < 5 then (length, refusedRequest)
    else
      let usernameLen := vnpRawUnpackUint8 (buf.shift 2)
      if usernameLen = 0 then (length, refusedRequest)
      else if length < 3 + usernameLen + 1 then (length, refusedRequest)
      else if vrsMaxUsernameLength < usernameLen then (length, refusedRequest)
      else
        let username := (List.range usernameLen).map fun i => buf (3 + i)
        let methodType := buf (3 + usernameLen)
        if methodType = uaMethodPassword then
          if length < 3 + usernameLen + 3 then (length, refusedRequest)
          else
            let passwordLen := vnpRawUnpackUint8 (buf.shift (4 + usernameLen))
            -- only here the position is returned and not the length
            if passwordLen = 0 then (5 + usernameLen, refusedRequest)
            else if length < 3 + usernameLen + 2 + passwordLen then (length, refusedRequest)
            else if vrsMaxDataLength < passwordLen then (length, refusedRequest)
            else
              (length, .userAuthRequest username methodType
                ((List.range passwordLen).map fun i => buf (5 + usernameLen + i)))
        else (length, .userAuthRequest username methodType [])

/-- `v_raw_unpack_user_auth_failure`. -/
def vRawUnpackUserAuthFailure (buf : Mem) (bufferSize : ℕ) : ℕ × MessageCmd :=
  if bufferSize < 2 then (bufferSize, .userAuthFailure [])
  else
    let length := vnpRawUnpackUint8 (buf.shift 1)
    if bufferSize < length then (bufferSize, .userAuthFailure [])
    else
      let count := min ((length + 2 ^ 8 - 2) % 2 ^ 8) vrsMaxUaMethodCount
      (length, .userAuthFailure ((List.range count).map fun i => buf (2 + i)))

/-- `v_raw_unpack_user_auth_success`. -/
def vRawUnpackUserAuthSuccess (buf : Mem) (bufferSize : ℕ) : ℕ × MessageCmd :=
  if bufferSize < 8 then (bufferSize, .userAuthSuccess vrsReservedUserId vrsReservedAvatarId)
  else if vnpRawUnpackUint8 (buf.shift 1) ≠ 8 then
    (8, .userAuthSuccess vrsReservedUserId vrsReservedAvatarId)
  else
    (8, .userAuthSuccess (UInt16.ofNat (vnpRawUnpackUint16 (buf.shift 2)))
      (UInt32.ofNat (vnpRawUnpackUint32 (buf.shift 4))))

/-- The switch over the ids of the system commands of a message. -/
def unpackMessageCmd (buf : Mem) (bufferSize : ℕ) : Option (ℕ × MessageCmd) :=
  if buf 0 = 7 then some (vRawUnpackUserAuthRequest buf bufferSize)
  else if buf 0 = 8 then some (vRawUnpackUserAuthFailure buf bufferSize)
  else if buf 0 = 9 then some (vRawUnpackUserAuthSuccess buf bufferSize)
  else
    (NegotiateId.ofByte (buf 0)).map fun id =>
      ((vRawUnpackNegotiateCmd id buf bufferSize).1,
        .sys (vRawUnpackNegotiateCmd id buf bufferSize).2)

/-- `v_unpack_message_system_commands`. -/
def vUnpackMessageSystemCommands (buf : Mem) (bufferLen : UInt16) : ℕ × List MessageCmd :=
  unpackSysCmds unpackMessageCmd (fun id => .sys (.unknown id)) buf bufferLen.toNat
    (maxSystemCommandCount - 1) 0

/-- The commands the loops over `sys_cmd` go through: they end at the first with
`CMD_RESERVED_ID`. -/
def beforeReserved (cmds : List MessageCmd) : List MessageCmd :=
  cmds.takeWhile (· ≠ .sys (.unknown 0))

/-- The system commands of the message in the buffer of a connection, and the
position behind them; `bufSize` is at least the size of the header. -/
def receivedSysCmds (buf : Mem) (bufSize : ℕ) : ℕ × List MessageCmd :=
  let (pos, cmds) := vUnpackMessageSystemCommands (buf.shift verseMessageHeaderSize)
    (UInt16.ofNat (bufSize - verseMessageHeaderSize))
  (verseMessageHeaderSize + pos, beforeReserved cmds)

/-! ## Packing -/

/-- `v_raw_pack_user_auth_request`.  The arrays have room for 64 and 128
characters, so that the length takes one byte. -/
def vRawPackUserAuthRequest (username : List UInt8) (methodType : UInt8) (data : List UInt8) :
    List UInt8 :=
  let password :=
    if methodType = uaMethodPassword then vnpRawPackString8 (cString data) else []
  let methodBytes :=
    if methodType = uaMethodNone ∨ methodType = uaMethodPassword then
      vnpRawPackUint8 methodType.toNat ++ password
    else []
  let length := 1 + 1 + 1 + (cString username).length + 1 + password.length
  vnpRawPackUint8 7 ++ vCmdPackLen length ++ vnpRawPackString8 (cString username) ++ methodBytes

/-- `v_raw_pack_user_auth_failure`. -/
def vRawPackUserAuthFailure (methods : List UInt8) : List UInt8 :=
  let methods := methods.take vrsMaxUaMethodCount
  vnpRawPackUint8 8 ++ vCmdPackLen (1 + 1 + methods.length) ++
    methods.flatMap fun m => vnpRawPackUint8 m.toNat

/-- `v_raw_pack_user_auth_success`. -/
def vRawPackUserAuthSuccess (userId : UInt16) (avatarId : UInt32) : List UInt8 :=
  vnpRawPackUint8 9 ++ vCmdPackLen (1 + 1 + 2 + 4) ++ vnpRawPackUint16 userId.toNat ++
    vnpRawPackUint32 avatarId.toNat

/-- One pass of the loop of `v_pack_stream_system_commands`; an ACK or NAK command
is passed over. -/
def packMessageCmd : MessageCmd → Option (List UInt8)
  | .userAuthRequest username methodType data =>
      some (vRawPackUserAuthRequest username methodType data)
  | .userAuthFailure methods => some (vRawPackUserAuthFailure methods)
  | .userAuthSuccess userId avatarId => some (vRawPackUserAuthSuccess userId avatarId)
  | .sys (.ackNak _ _) => some []
  | .sys cmd => packSysCmd cmd

/-- `v_pack_stream_system_commands`. -/
def vPackStreamSystemCommands (cmds : List MessageCmd) : Option (List UInt8) :=
  ((cmds.take maxSystemCommandCount).mapM packMessageCmd).map List.flatten

end Verse
