import Verse.Lib.Memory
import Verse.Commands.Table
import Mathlib.Algebra.BigOperators.Group.List.Basic
import Mathlib.Algebra.GroupWithZero.Nat

/-!
# Commands and how they are packed

`v_pack.c` and the sending half of `v_commands.c`.  A `Generic_Cmd` is an id
followed by the bytes of its items as they stand in memory; a packed item has
its most significant byte first.

The value of a string item is a pointer in the source.  Here `data` holds the
bytes before the pointer and `str` what the pointer refers to; `none` is a
pointer that was never set.
-/

namespace Verse

open Lib

/-- `Generic_Cmd`. -/
structure GenericCmd where
  id : UInt8
  data : List UInt8
  str : Option (List UInt8)
  deriving DecidableEq, Repr

namespace GenericCmd

/-- The entry of `cmd_struct` for this command. -/
def layout (cmd : GenericCmd) : CmdStruct := cmdStruct cmd.id.toNat

end GenericCmd

/-- `strlen` of the string the command refers to. -/
def strLen (cmd : GenericCmd) : ℕ := (cmd.str.getD []).length

/-- `v_cmd_size`. -/
def vCmdSize (cmd : GenericCmd) : ℕ :=
  let s := cmd.layout
  if s.isNodeCmd then
    if !s.varLen then s.cmdSize
    else s.items.foldl
      (fun size item => if item.type = .string8 then size + strLen cmd else size) (s.cmdSize - 1)
  else 0

/-- `v_cmd_struct_size` of a node command. -/
def vCmdStructSize (cmd : GenericCmd) : ℕ := 1 + cmd.layout.size

/-! ## Numbers -/

/-- `vnp_raw_pack_uint8`. -/
def vnpRawPackUint8 (v : ℕ) : List UInt8 := [UInt8.ofNat v]

/-- `vnp_raw_pack_uint16` and `vnp_raw_pack_real16`. -/
def vnpRawPackUint16 (v : ℕ) : List UInt8 := [UInt8.ofNat (v >>> 8), UInt8.ofNat v]

/-- `vnp_raw_pack_uint32` and `vnp_raw_pack_real32`. -/
def vnpRawPackUint32 (v : ℕ) : List UInt8 :=
  [UInt8.ofNat (v >>> 24), UInt8.ofNat (v >>> 16), UInt8.ofNat (v >>> 8), UInt8.ofNat v]

/-- `vnp_raw_pack_uint64` and `vnp_raw_pack_real64`: the second word of the union
first. -/
def vnpRawPackUint64 (v : ℕ) : List UInt8 :=
  vnpRawPackUint32 (v / 2 ^ 32) ++ vnpRawPackUint32 (v % 2 ^ 32)

/-- `VRS_STRING8_MAX_SIZE`. -/
def vrsString8MaxSize : ℕ := 255

/-- `vnp_raw_pack_string8`. -/
def vnpRawPackString8 (string : List UInt8) : List UInt8 :=
  let strLen := min string.length vrsString8MaxSize
  UInt8.ofNat strLen :: string.take strLen

theorem vnpRawPackUint8_eq (v : ℕ) : vnpRawPackUint8 v = (leBytes 1 v).reverse := rfl

theorem vnpRawPackUint16_eq (v : ℕ) : vnpRawPackUint16 v = (leBytes 2 v).reverse := by
  simp [vnpRawPackUint16, leBytes, Nat.shiftRight_eq_div_pow]

theorem vnpRawPackUint32_eq (v : ℕ) : vnpRawPackUint32 v = (leBytes 4 v).reverse := by
  simp [vnpRawPackUint32, leBytes, Nat.shiftRight_eq_div_pow, Nat.div_div_eq_div_mul]

theorem vnpRawPackUint64_eq (v : ℕ) : vnpRawPackUint64 v = (leBytes 8 v).reverse := by
  have hlow : leBytes 4 (v % 2 ^ 32) = leBytes 4 v := leBytes_mod 4 v
  have hsplit : leBytes 8 v = leBytes 4 v ++ leBytes 4 (v / 2 ^ 32) := leBytes_add 4 4 v
  rw [vnpRawPackUint64, vnpRawPackUint32_eq, vnpRawPackUint32_eq, hlow, hsplit, List.reverse_append]

/-! ## Items -/

/-- The bytes of `cmd->data` an item takes; the pointer at a string is kept
apart. -/
def CmdItemType.dataWidth : CmdItemType → ℕ
  | .string8 => 0
  | type => type.width

/-- The number a `UINT8`, `UINT16`, ... of `v_commands.h` reads from the command. -/
def GenericCmd.read (cmd : GenericCmd) (item : CmdItem) : ℕ :=
  leVal (slice cmd.data item.offset item.type.width)

/-- One pass of the loop of `v_cmd_pack` over the items. -/
def packItem (cmd : GenericCmd) (item : CmdItem) : List UInt8 :=
  match item.type with
  | .reserved => []
  | .int8 | .uint8 => vnpRawPackUint8 (cmd.read item)
  | .int16 | .uint16 | .real16 => vnpRawPackUint16 (cmd.read item)
  | .int32 | .uint32 | .real32 => vnpRawPackUint32 (cmd.read item)
  | .int64 | .uint64 | .real64 => vnpRawPackUint64 (cmd.read item)
  | .string8 => vnpRawPackString8 (cmd.str.getD [])

/-- The loop of `v_cmd_pack` from item `skip` on. -/
def packItems (cmd : GenericCmd) (skip : ℕ) : List UInt8 :=
  ((cmd.layout.items.take cmd.layout.itemCount).drop skip).flatMap (packItem cmd)

/-- The loop that adds up key items until `share` bytes are reached; the result is
the size that was reached and the number of items. -/
def sharedItems (share : ℕ) : List CmdItem → ℕ → ℕ × ℕ
  | [], sharedSize => (sharedSize, 0)
  | item :: rest, sharedSize =>
      if sharedSize < share then
        let (size, skip) := sharedItems share rest (sharedSize + item.size)
        (size, skip + 1)
      else (sharedSize, 0)

/-- The key items of a layout. -/
def CmdStruct.keyItems (s : CmdStruct) : List CmdItem := s.items.take s.keyCount

/-- `v_cmd_pack_len`. -/
def vCmdPackLen (length : ℕ) : List UInt8 :=
  if 0xFF ≤ length then vnpRawPackUint8 0xFF ++ vnpRawPackUint16 length
  else vnpRawPackUint8 length

/-- `v_cmd_pack`: the bytes that are written; `none` is the failed assertion on
the shared size. -/
def vCmdPack (cmd : GenericCmd) (length share : ℕ) : Option (List UInt8) :=
  let s := cmd.layout
  if length ≠ 0 then
    some (vnpRawPackUint8 cmd.id.toNat ++ vCmdPackLen length ++
      (if s.sharesAddr then vnpRawPackUint8 share else []) ++ packItems cmd 0)
  else if s.sharesAddr && share != 0 then
    let (sharedSize, skipItems) := sharedItems share s.keyItems 0
    if sharedSize = share then some (packItems cmd skipItems) else none
  else some (packItems cmd 0)

/-! ## Lengths -/

/-- The data length of one command with a string, as `v_cmds_len` adds it up. -/
def varDataLen (cmd : GenericCmd) : ℕ :=
  ((cmd.layout.items.take cmd.layout.itemCount).map fun item =>
    if item.type = .string8 then 1 + strLen cmd else item.type.width).sum % 2 ^ 16

/-- `v_cmds_len`. -/
def vCmdsLen (cmd : GenericCmd) (count share len : ℕ) : ℕ :=
  let s := cmd.layout
  if s.sharesAddr then
    if !s.varLen then
      let dataLen := count * (s.size - share) % 2 ^ 16
      if 1 + 1 + 1 + share + dataLen < 0xFF then (1 + 1 + 1 + share + dataLen) % 2 ^ 16
      else (1 + 1 + 2 + 1 + share + dataLen) % 2 ^ 16
    else
      let dataLen := varDataLen cmd
      if len = 0 then
        if 1 + 1 + dataLen < 0xFF then (1 + 1 + dataLen) % 2 ^ 16
        else (1 + 1 + 2 + dataLen) % 2 ^ 16
      else if len < 0xFF ∧ 0xFF ≤ len + dataLen then (len + 2 + dataLen) % 2 ^ 16
      else (len + dataLen) % 2 ^ 16
  else
    let dataLen := count * s.size % 2 ^ 16
    if 1 + 1 + dataLen < 0xFF then (1 + 1 + dataLen) % 2 ^ 16
    else (1 + 1 + 2 + dataLen) % 2 ^ 16

/-- The difference of two `size_t` values. -/
def sub64 (a b : ℕ) : ℕ := (a + 2 ^ 64 - b) % 2 ^ 64

theorem sub64_of_le {a b : ℕ} (ha : a < 2 ^ 64) (h : b ≤ a) : sub64 a b = a - b := by
  rw [sub64]
  omega

/-- `v_cmd_count`.  A buffer smaller than a header makes the difference wrap, and so does an
id without a layout, whose size is zero. -/
def vCmdCount (cmd : GenericCmd) (maxLen share : ℕ) : ℕ :=
  let s := cmd.layout
  if s.varLen then 0
  else if s.sharesAddr then
    if maxLen < 0xFF then sub64 maxLen (1 + 1 + 1 + share) / sub64 s.size share % 2 ^ 16
    else sub64 maxLen (1 + 1 + 2 + 1 + share) / sub64 s.size share % 2 ^ 16
  else
    if maxLen < 0xFF then sub64 maxLen (1 + 1) / sub64 s.size 1 % 2 ^ 16
    else sub64 maxLen (1 + 1 + 2) / sub64 s.size 1 % 2 ^ 16

/-- `v_cmd_cmp_addr`: how much of the address two commands of one id share, up to
`currentSize` bytes. -/
def vCmdCmpAddr (cmd1 cmd2 : GenericCmd) (currentSize : ℕ) : ℕ :=
  let s := cmd1.layout
  if s.sharesAddr && !s.varLen && 0 < currentSize then cmpItems s.keyItems 0 else 0
where
  /-- The loop over the key items. -/
  cmpItems : List CmdItem → ℕ → ℕ
    | [], shareSize => shareSize
    | item :: rest, shareSize =>
        if shareSize < currentSize then
          if slice cmd1.data item.offset item.size = slice cmd2.data item.offset item.size then
            cmpItems rest (shareSize + item.size)
          else shareSize
        else shareSize

end Verse
