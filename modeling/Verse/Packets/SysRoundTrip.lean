import Verse.Packets.SysCommands
import Verse.Commands.RoundTrip

/-!
# What comes back of a packed packet

The packer writes up to `MAX_SYSTEM_COMMAND_COUNT` system commands and the parser
stores one less.  The parser counts the strings of a negotiate command by a loop
that stops when its position reaches the size of the values, while the position
counts from the beginning of the command: a last string that is shorter than the
header of its command is not counted.

## Strategy

`SysCmd.readBack` is what the parser makes of one command, and `unpackSysCmds_pack`
what it makes of a list of them.  `packet_comes_back_iff` then only compares a
command with what is read back of it.
-/

namespace Verse

open Lib

/-! ## What the sender builds -/

/-- A preference list as `v_add_negotiate_cmd` stores it. -/
def Preference.Built : Preference → Prop
  | .byte _ values => values.length ≤ maxFtrValueCount
  | .string8 _ values =>
      values.length ≤ maxFtrValueCount ∧ ∀ str ∈ values, str.length ≤ vrsString8MaxSize ∧ 0 ∉ str
  | .fps values => values.length ≤ maxFtrValueCount

/-- A system command as the sender puts it into a packet. -/
def SysCmd.Built : SysCmd → Prop
  | .ackNak _ _ => True
  | .negotiate cmd => cmd.preference.Built
  | _ => False

/-- The number of values of a preference list. -/
def Preference.count : Preference → ℕ
  | .byte _ values => values.length
  | .string8 _ values => values.length
  | .fps values => values.length

theorem vAddNegotiateCmd_built (id : NegotiateId) {preference : Preference}
    (h : preference.count ≤ maxFtrValueCount) : (vAddNegotiateCmd id preference).preference.Built := by
  cases preference with
  | byte feature values => exact h
  | fps values => exact h
  | string8 feature values =>
      refine ⟨by simpa [Preference.count] using h, fun str hstr => ?_⟩
      obtain ⟨s, -, rfl⟩ := List.mem_map.mp hstr
      refine ⟨List.length_take_le _ _, fun hzero => ?_⟩
      have := List.mem_takeWhile_imp (List.mem_of_mem_take hzero)
      simp at this

theorem vnpRawPackString8_built {str : List UInt8} (hlen : str.length ≤ vrsString8MaxSize)
    (hzero : 0 ∉ str) :
    vnpRawPackString8 (str.takeWhile (· ≠ 0)) = UInt8.ofNat str.length :: str := by
  rw [takeWhile_ne_zero hzero, vnpRawPackString8, Nat.min_eq_left hlen, List.take_length]

/-- What the values take is what the length field announces. -/
theorem Preference.length_pack {preference : Preference} (h : preference.Built) :
    preference.pack.length = preference.size := by
  cases preference with
  | byte feature values => simp [Preference.pack, Preference.size, vnpRawPackUint8]
  | fps values => simp [Preference.pack, Preference.size, vnpRawPackUint32]
  | string8 feature values =>
      simp only [Preference.pack, Preference.size, List.length_flatMap]
      congr 1
      refine List.map_congr_left fun str hstr => ?_
      rw [vnpRawPackString8_built (h.2 str hstr).1 (h.2 str hstr).2, List.length_cons, Nat.add_comm]

theorem sum_string_sizes_le {values : List (List UInt8)}
    (h : ∀ str ∈ values, str.length ≤ vrsString8MaxSize) :
    (values.map fun str => 1 + str.length).sum ≤ values.length * 256 := by
  induction values with
  | nil => simp
  | cons str rest ih =>
      have hstr : str.length ≤ 255 := h str (by simp)
      have hrest := ih fun s hs => h s (by simp [hs])
      simp only [List.map_cons, List.sum_cons, List.length_cons]
      omega

theorem Preference.size_le {preference : Preference} (h : preference.Built) :
    preference.size ≤ 5 * 256 := by
  cases preference with
  | byte feature values =>
      have hcount : values.length ≤ 5 := h
      exact hcount.trans (by decide)
  | fps values =>
      have hcount : values.length ≤ 5 := h
      exact (Nat.mul_le_mul_right 4 hcount).trans (by decide)
  | string8 feature values =>
      have hsum := sum_string_sizes_le fun str hstr => (h.2 str hstr).1
      exact hsum.trans (Nat.mul_le_mul_right 256 h.1)

/-! ## Numbers -/

theorem vnpRawUnpackUint16_pack {m : Mem} {v : ℕ} (hv : v < 2 ^ 16)
    (hholds : Holds m (vnpRawPackUint16 v)) : vnpRawUnpackUint16 m = v := by
  have h0 : m 0 = UInt8.ofNat (v >>> 8) := hholds 0 (by simp [vnpRawPackUint16])
  have h1 : m 1 = UInt8.ofNat v := hholds 1 (by simp [vnpRawPackUint16])
  simp only [vnpRawUnpackUint16, h0, h1, UInt8.toNat_ofNat', Nat.shiftRight_eq_div_pow]
  omega

theorem vnpRawUnpackUint32_pack {m : Mem} {v : ℕ} (hv : v < 2 ^ 32)
    (hholds : Holds m (vnpRawPackUint32 v)) : vnpRawUnpackUint32 m = v := by
  have h0 : m 0 = UInt8.ofNat (v >>> 24) := hholds 0 (by simp [vnpRawPackUint32])
  have h1 : m 1 = UInt8.ofNat (v >>> 16) := hholds 1 (by simp [vnpRawPackUint32])
  have h2 : m 2 = UInt8.ofNat (v >>> 8) := hholds 2 (by simp [vnpRawPackUint32])
  have h3 : m 3 = UInt8.ofNat v := hholds 3 (by simp [vnpRawPackUint32])
  simp only [vnpRawUnpackUint32, h0, h1, h2, h3, UInt8.toNat_ofNat', Nat.shiftRight_eq_div_pow]
  omega

/-! ## The header -/

/-- Four bits of the version are sent. -/
theorem version_comes_back (version : UInt8) :
    ((version <<< 4 &&& 0xF0) >>> 4) &&& 0x0F = version &&& 0x0F := by
  have hall : ∀ n < 256, ((UInt8.ofNat n <<< 4 &&& 0xF0) >>> 4) &&& 0x0F = UInt8.ofNat n &&& 0x0F := by
    decide +kernel
  have := hall version.toNat version.toNat_lt
  rwa [UInt8.ofNat_toNat] at this

theorem and_low_eq_self_iff (version : UInt8) : version &&& 0x0F = version ↔ version < 16 := by
  have hall : ∀ n < 256, UInt8.ofNat n &&& 0x0F = UInt8.ofNat n ↔ UInt8.ofNat n < 16 := by
    decide +kernel
  have := hall version.toNat version.toNat_lt
  rwa [UInt8.ofNat_toNat] at this

theorem length_vPackPacketHeader (header : VPacketHeader) :
    (vPackPacketHeader header).length = versePacketHeaderSize := rfl

theorem vUnpackPacketHeader_pack {buf : Mem} {bufferLen : ℕ} {header : VPacketHeader}
    (hlen : versePacketHeaderSize ≤ bufferLen) (hholds : Holds buf (vPackPacketHeader header)) :
    vUnpackPacketHeader buf bufferLen =
      some { header with version := header.version &&& 0x0F } := by
  simp only [vPackPacketHeader, holds_append, List.length_append] at hholds
  obtain ⟨⟨⟨⟨⟨hversion, hflags⟩, hwindow⟩, hpayload⟩, hackNak⟩, hank⟩ := hholds
  have hversion := holds_vnpRawPackUint8 hversion
  have hflags : buf 1 = header.flags := holds_vnpRawPackUint8 hflags
  have hwindow := vnpRawUnpackUint16_pack header.window.toNat_lt hwindow
  have hpayload := vnpRawUnpackUint32_pack header.payloadId.toNat_lt hpayload
  have hackNak := vnpRawUnpackUint32_pack header.ackNakId.toNat_lt hackNak
  have hank := vnpRawUnpackUint32_pack header.ankId.toNat_lt hank
  rw [vUnpackPacketHeader, if_neg (by omega), hversion, hflags, version_comes_back]
  congr 2
  · exact (congrArg UInt16.ofNat hwindow).trans UInt16.ofNat_toNat
  · exact (congrArg UInt32.ofNat hpayload).trans UInt32.ofNat_toNat
  · exact (congrArg UInt32.ofNat hackNak).trans UInt32.ofNat_toNat
  · exact (congrArg UInt32.ofNat hank).trans UInt32.ofNat_toNat

/-! ## Values -/

/-- A value that `emit` wrote and `read` reads back, at any place before `bound`. -/
def ReadsBack {α : Type} (buf : Mem) (bound : ℕ) (emit : α → List UInt8) (read : ℕ → ℕ × α)
    (v : α) : Prop :=
  ∀ pos, pos + (emit v).length ≤ bound → Holds (buf.shift pos) (emit v) →
    read pos = ((emit v).length, v)

/-- The loop over the values reads as many of them back as it is told to. -/
theorem unpackValues_take {α : Type} {buf : Mem} {bound : ℕ} {emit : α → List UInt8}
    {read : ℕ → ℕ × α} (hbound : bound < 2 ^ 16) {values : List α} {count pos : ℕ}
    (hread : ∀ v ∈ values, ReadsBack buf bound emit read v)
    (hcount : count ≤ values.length) (hpos : pos + (values.flatMap emit).length ≤ bound)
    (hholds : Holds (buf.shift pos) (values.flatMap emit)) :
    unpackValues read count pos = values.take count := by
  induction values generalizing count pos with
  | nil =>
      obtain rfl : count = 0 := by simpa using hcount
      rfl
  | cons v rest ih =>
      rw [List.flatMap_cons, List.length_append] at hpos
      rw [List.flatMap_cons, holds_append, shift_shift] at hholds
      cases count with
      | zero => rfl
      | succ count =>
          have hv := hread v (by simp) pos (by omega) hholds.1
          have hnext : (pos + (emit v).length) % 2 ^ 16 = pos + (emit v).length :=
            Nat.mod_eq_of_lt (by omega)
          rw [unpackValues, hv, hnext, List.take_succ_cons,
            ih (fun w hw => hread w (by simp [hw])) (by simpa using hcount) (by omega) hholds.2]

theorem readsBack_byte (buf : Mem) (bound : ℕ) (v : UInt8) :
    ReadsBack buf bound (fun v : UInt8 => vnpRawPackUint8 v.toNat) (fun pos => (1, buf pos)) v := by
  intro pos _ hholds
  have h0 := holds_vnpRawPackUint8 hholds
  rw [shift_apply, Nat.add_zero] at h0
  exact Prod.ext rfl h0

theorem readsBack_real32 (buf : Mem) (bound : ℕ) (v : UInt32) :
    ReadsBack buf bound (fun v : UInt32 => vnpRawPackUint32 v.toNat)
      (fun pos => (4, UInt32.ofNat (vnpRawUnpackUint32 (buf.shift pos)))) v := by
  intro pos _ hholds
  have h0 := vnpRawUnpackUint32_pack v.toNat_lt hholds
  simp only [h0, UInt32.ofNat_toNat]
  rfl

theorem readsBack_string8 {buf : Mem} {bound bufferSize : ℕ} {str : List UInt8}
    (hlen : str.length ≤ vrsString8MaxSize) (hzero : 0 ∉ str) (hbound : bound ≤ bufferSize)
    (hsize : bufferSize < 2 ^ 64) :
    ReadsBack buf bound (fun str => vnpRawPackString8 (str.takeWhile (· ≠ 0)))
      (fun pos => vnpRawUnpackString8ToString8 (buf.shift pos) (sub64 bufferSize pos) []) str := by
  intro pos hpos hholds
  simp only [vnpRawPackString8_built hlen hzero, List.length_cons] at hpos hholds ⊢
  obtain ⟨h0, hbody⟩ := holds_cons.mp hholds
  have hlen255 : str.length ≤ 255 := hlen
  have hsub : sub64 bufferSize pos = bufferSize - pos := by
    unfold sub64
    omega
  have hval : vnpRawUnpackUint8 (buf.shift pos) = str.length := by
    rw [vnpRawUnpackUint8, h0, UInt8.toNat_ofNat']
    omega
  rw [hsub, vnpRawUnpackString8ToString8]
  split
  case isTrue hshort =>
    -- one byte is left, so that the string is empty
    obtain rfl : str = [] := List.eq_nil_of_length_eq_zero (by omega)
    simp only [List.length_nil, Nat.zero_add, Prod.mk.injEq, and_true] at hpos ⊢
    omega
  case isFalse =>
    simp only [hval, if_neg (show ¬ bufferSize - pos < str.length by omega), hbody.map_range]
    rw [Nat.add_comm]

/-! ## Counting strings -/

/-- The strings that are counted when the first of them begins at `pos`. -/
def counted (limit : ℕ) : ℕ → List (List UInt8) → ℕ
  | _, [] => 0
  | pos, str :: rest => if pos < limit then 1 + counted limit (pos + (1 + str.length)) rest else 0

theorem counted_le (limit pos : ℕ) (values : List (List UInt8)) :
    counted limit pos values ≤ values.length := by
  induction values generalizing pos with
  | nil => exact le_rfl
  | cons str rest ih =>
      have := ih (pos + (1 + str.length))
      simp only [counted, List.length_cons]
      split <;> omega

/-- The loop of the parser, as long as it does not leave the values. -/
theorem countStrings_eq_counted {buf : Mem} {limit : ℕ} {values : List (List UInt8)} {fuel pos : ℕ}
    (hbuilt : ∀ str ∈ values, str.length ≤ vrsString8MaxSize ∧ 0 ∉ str)
    (hlimit : limit ≤ pos + (values.map fun str => 1 + str.length).sum) (hfuel : limit ≤ pos + fuel)
    (hholds : Holds (buf.shift pos)
      (values.flatMap fun str => vnpRawPackString8 (str.takeWhile (· ≠ 0)))) :
    countStrings buf limit fuel pos = counted limit pos values := by
  induction values generalizing fuel pos with
  | nil =>
      simp only [List.map_nil, List.sum_nil, Nat.add_zero] at hlimit
      cases fuel with
      | zero => rfl
      | succ fuel => rw [countStrings, if_neg (by omega), counted]
  | cons str rest ih =>
      obtain ⟨hlen, hzero⟩ := hbuilt str (by simp)
      have hlen255 : str.length ≤ 255 := hlen
      simp only [List.map_cons, List.sum_cons] at hlimit
      rw [List.flatMap_cons, vnpRawPackString8_built hlen hzero, holds_append, shift_shift,
        List.length_cons, Nat.add_comm str.length] at hholds
      have hval : vnpRawUnpackUint8 (buf.shift pos) = str.length := by
        rw [vnpRawUnpackUint8, (holds_cons.mp hholds.1).1, UInt8.toNat_ofNat']
        omega
      rw [counted]
      cases fuel with
      | zero => rw [if_neg (by omega)]; rfl
      | succ fuel =>
          rw [countStrings, hval]
          split
          case isFalse => rfl
          case isTrue =>
            rw [ih (fun s hs => hbuilt s (by simp [hs])) (by omega) (by omega) hholds.2]

/-- All strings are counted exactly if the last one reaches over the part of the
values that the limit leaves out, which is as long as what stands before them. -/
theorem counted_eq_length_iff {limit pos header : ℕ} {values : List (List UInt8)}
    (h : limit + header = pos + (values.map fun str => 1 + str.length).sum) :
    counted limit pos values = values.length ↔
      ∀ last ∈ values.getLast?, header ≤ last.length := by
  induction values generalizing pos with
  | nil => simp [counted]
  | cons str rest ih =>
      simp only [List.map_cons, List.sum_cons] at h
      rw [counted]
      cases rest with
      | nil =>
          simp only [counted, List.map_nil, List.sum_nil] at h ⊢
          simp only [List.getLast?_singleton, Option.mem_def, Option.some.injEq, forall_eq',
            List.length_singleton]
          split <;> omega
      | cons next rest =>
          have ih := @ih (pos + (1 + str.length)) (by omega)
          rw [List.getLast?_cons_cons, ← ih]
          split
          case isTrue =>
            rw [List.length_cons]
            omega
          case isFalse hend =>
            have hpositive : counted limit (pos + (1 + str.length)) (next :: rest) = 0 := by
              rw [counted, if_neg (by omega)]
            rw [hpositive]
            simp

/-! ## One command -/

/-- The bytes before the values of a negotiate command. -/
def NegotiateCmd.headerLen (cmd : NegotiateCmd) : ℕ := 1 + (vCmdPackLen cmd.length).length + 1

theorem NegotiateCmd.length_eq (cmd : NegotiateCmd) :
    cmd.length = cmd.headerLen + cmd.preference.size := by
  unfold NegotiateCmd.headerLen NegotiateCmd.length vCmdPackLen
  by_cases hbig : 0xFF ≤ 1 + 1 + 1 + cmd.preference.size
  · simp only [if_pos hbig, if_pos (show 0xFF ≤ 1 + 1 + 1 + cmd.preference.size + 2 by omega),
      List.length_append, vnpRawPackUint8, vnpRawPackUint16, List.length_cons, List.length_nil]
    omega
  · simp only [if_neg hbig, vnpRawPackUint8, List.length_cons, List.length_nil]

/-- What is left of a preference list: the strings that are counted. -/
def Preference.readBack (headerLen : ℕ) : Preference → Preference
  | .string8 feature values =>
      .string8 feature
        (values.take (counted (values.map fun str => 1 + str.length).sum headerLen values))
  | preference => preference

/-- What the parser makes of a command. -/
def SysCmd.readBack : SysCmd → SysCmd
  | .negotiate cmd => .negotiate ⟨cmd.id, cmd.preference.readBack cmd.headerLen⟩
  | cmd => cmd

/-- The feature without its values. -/
def Preference.cleared : Preference → Preference
  | .byte feature _ => .byte feature []
  | .string8 feature _ => .string8 feature []
  | .fps _ => .fps []

theorem Preference.ofByte_feature (preference : Preference) :
    Preference.ofByte preference.feature = some preference.cleared := by
  rcases preference with ⟨feature, _⟩ | ⟨feature, _⟩ | _
  · cases feature <;> rfl
  · cases feature <;> rfl
  · rfl

theorem NegotiateId.ofByte_toByte (id : NegotiateId) : NegotiateId.ofByte id.toByte = some id := by
  cases id <;> rfl

theorem Preference.unpack_pack {preference : Preference} (hbuilt : preference.Built) {buf : Mem}
    {bufferSize cmdLength headerLen : ℕ} (hcmd : cmdLength = headerLen + preference.size)
    (hshort : cmdLength < 2 ^ 16) (hroom : cmdLength ≤ bufferSize) (hsize : bufferSize < 2 ^ 64)
    (hholds : Holds (buf.shift headerLen) preference.pack) :
    preference.cleared.unpack buf bufferSize cmdLength headerLen headerLen =
      preference.readBack headerLen := by
  have hpackLen := Preference.length_pack hbuilt
  have hrest : cmdLength - headerLen = preference.size := by omega
  have hend : headerLen + preference.pack.length ≤ cmdLength := by omega
  cases preference with
  | byte feature values =>
      have hcount : values.length ≤ 5 := hbuilt
      have hread := unpackValues_take hshort
        (fun v _ => readsBack_byte buf cmdLength v) le_rfl hend hholds
      have hmod : (cmdLength - headerLen) % 2 ^ 8 = values.length := by
        rw [hrest]
        exact Nat.mod_eq_of_lt (by show values.length < 2 ^ 8; omega)
      simp only [Preference.cleared, Preference.unpack, Preference.readBack, hmod, hread,
        List.take_length]
  | fps values =>
      have hcount : values.length ≤ 5 := hbuilt
      have hread := unpackValues_take hshort
        (fun v _ => readsBack_real32 buf cmdLength v) le_rfl hend hholds
      have hmod : (cmdLength - headerLen) / 4 % 2 ^ 8 = values.length := by
        rw [hrest]
        show values.length * 4 / 4 % 2 ^ 8 = values.length
        omega
      simp only [Preference.cleared, Preference.unpack, Preference.readBack, hmod, hread,
        List.take_length]
  | string8 feature values =>
      have hcount : values.length ≤ 5 := hbuilt.1
      have hcounted := counted_le (values.map fun str => 1 + str.length).sum headerLen values
      have hread := unpackValues_take hshort
        (fun v hv => readsBack_string8 (hbuilt.2 v hv).1 (hbuilt.2 v hv).2 hroom hsize)
        hcounted hend hholds
      have hlimit : cmdLength - headerLen = (values.map fun str => 1 + str.length).sum := hrest
      have hcountStrings : countStrings buf (cmdLength - headerLen) (cmdLength - headerLen) headerLen
          = counted (values.map fun str => 1 + str.length).sum headerLen values := by
        rw [hlimit]
        exact countStrings_eq_counted hbuilt.2 (by omega) (by omega) hholds
      have hmod : countStrings buf (cmdLength - headerLen) (cmdLength - headerLen) headerLen % 2 ^ 8
          = counted (values.map fun str => 1 + str.length).sum headerLen values := by
        rw [hcountStrings]
        exact Nat.mod_eq_of_lt (by omega)
      simp only [Preference.cleared, Preference.unpack, Preference.readBack, hmod, hread]

/-- The bytes of a command. -/
def SysCmd.bytes : SysCmd → List UInt8
  | .ackNak id payId => vRawPackAckNakCmd id payId
  | .negotiate cmd =>
      vnpRawPackUint8 cmd.id.toByte.toNat ++ vCmdPackLen cmd.length ++
        vnpRawPackUint8 cmd.preference.feature.toNat ++ cmd.preference.pack
  | _ => []

theorem length_bytes_negotiate {cmd : NegotiateCmd} (hbuilt : cmd.preference.Built) :
    (SysCmd.negotiate cmd).bytes.length = cmd.length := by
  rw [cmd.length_eq, ← Preference.length_pack hbuilt]
  simp only [SysCmd.bytes, NegotiateCmd.headerLen, vnpRawPackUint8, List.length_append,
    List.length_cons, List.length_nil]

/-- No assertion of the packer fails. -/
theorem packSysCmd_built {cmd : SysCmd} (hbuilt : cmd.Built) : packSysCmd cmd = some cmd.bytes := by
  cases cmd with
  | ackNak id payId => rfl
  | negotiate cmd => exact if_pos (length_bytes_negotiate hbuilt)
  | refused id => exact hbuilt.elim
  | noFeature id feature => exact hbuilt.elim
  | unknown id => exact hbuilt.elim

/-- A command that is built fits its length field. -/
theorem NegotiateCmd.length_lt {cmd : NegotiateCmd} (hbuilt : cmd.preference.Built) :
    cmd.length < 2 ^ 16 := by
  have hsize := Preference.size_le hbuilt
  unfold NegotiateCmd.length
  dsimp only
  split <;> omega

theorem vRawUnpackNegotiateCmd_pack {cmd : NegotiateCmd} (hbuilt : cmd.preference.Built) {buf : Mem}
    {bufferSize : ℕ} (hroom : cmd.length ≤ bufferSize) (hsize : bufferSize < 2 ^ 64)
    (hholds : Holds buf (SysCmd.negotiate cmd).bytes) :
    vRawUnpackNegotiateCmd cmd.id buf bufferSize =
      (cmd.length, (SysCmd.negotiate cmd).readBack) := by
  have hlengthEq := cmd.length_eq
  have hshort := NegotiateCmd.length_lt hbuilt
  simp only [SysCmd.bytes, holds_append, List.length_append] at hholds
  obtain ⟨⟨⟨-, hlen⟩, hfeature⟩, hvalues⟩ := hholds
  have hread := CmdGroup.vCmdUnpackLen_pack hshort hlen
  have hfeature : buf (1 + (vCmdPackLen cmd.length).length) = cmd.preference.feature :=
    holds_vnpRawPackUint8 hfeature
  have hunpack := Preference.unpack_pack hbuilt hlengthEq hshort hroom hsize hvalues
  have hread : vCmdUnpackLen (buf.shift 1) = _ := hread
  have hheader : ¬ cmd.length < 1 + (vCmdPackLen cmd.length).length + 1 := by
    unfold NegotiateCmd.headerLen at hlengthEq
    omega
  rw [vRawUnpackNegotiateCmd, hread]
  simp only [if_neg (Nat.not_lt.mpr hroom), if_neg hheader, hfeature, Preference.ofByte_feature]
  exact congrArg (fun preference => (cmd.length, SysCmd.negotiate ⟨cmd.id, preference⟩)) hunpack

theorem vRawUnpackAckNakCmd_pack {id : AckNakId} {payId : UInt32} {buf : Mem}
    (hholds : Holds buf (SysCmd.ackNak id payId).bytes) :
    vRawUnpackAckNakCmd id buf = ((SysCmd.ackNak id payId).bytes.length, .ackNak id payId) := by
  simp only [SysCmd.bytes, vRawPackAckNakCmd, holds_append] at hholds
  have hpay := vnpRawUnpackUint32_pack payId.toNat_lt hholds.2
  have hpay : vnpRawUnpackUint32 (buf.shift 1) = payId.toNat := hpay
  rw [vRawUnpackAckNakCmd, hpay, UInt32.ofNat_toNat]
  rfl

/-- The first byte of a command is its id. -/
theorem exists_id_of_built {cmd : SysCmd} (hbuilt : cmd.Built) {buf : Mem}
    (hholds : Holds buf cmd.bytes) :
    (∃ id payId, cmd = .ackNak id payId ∧ buf 0 = id.toByte) ∨
      ∃ neg, cmd = .negotiate neg ∧ neg.preference.Built ∧ buf 0 = neg.id.toByte := by
  cases cmd with
  | ackNak id payId =>
      simp only [SysCmd.bytes, vRawPackAckNakCmd, holds_append] at hholds
      exact .inl ⟨id, payId, rfl, holds_vnpRawPackUint8 hholds.1⟩
  | negotiate neg =>
      simp only [SysCmd.bytes, holds_append] at hholds
      exact .inr ⟨neg, rfl, hbuilt, holds_vnpRawPackUint8 hholds.1.1.1⟩
  | refused id => exact hbuilt.elim
  | noFeature id feature => exact hbuilt.elim
  | unknown id => exact hbuilt.elim

theorem SysCmd.bytes_pos (cmd : SysCmd) (hbuilt : cmd.Built) : 0 < cmd.bytes.length := by
  cases cmd with
  | ackNak id payId => simp [SysCmd.bytes, vRawPackAckNakCmd, vnpRawPackUint8]
  | negotiate neg => simp [SysCmd.bytes, vnpRawPackUint8]
  | refused id => exact hbuilt.elim
  | noFeature id feature => exact hbuilt.elim
  | unknown id => exact hbuilt.elim

/-- **A command comes back** as `readBack` says, and the parser is behind it. -/
theorem unpackPacketCmd_pack {cmd : SysCmd} (hbuilt : cmd.Built) {buf : Mem} {bufferSize : ℕ}
    (hroom : cmd.bytes.length ≤ bufferSize) (hsize : bufferSize < 2 ^ 16)
    (hholds : Holds buf cmd.bytes) :
    buf 0 ≤ maxSysCmdId ∧
      unpackPacketCmd buf bufferSize = some (cmd.bytes.length, cmd.readBack) := by
  obtain ⟨id, payId, rfl, hid⟩ | ⟨neg, rfl, hneg, hid⟩ := exists_id_of_built hbuilt hholds
  · have hread := vRawUnpackAckNakCmd_pack hholds
    cases id with
    | ack =>
        refine ⟨by rw [hid]; decide, ?_⟩
        rw [unpackPacketCmd, hid, if_pos (by decide), hread]
        rfl
    | nak =>
        refine ⟨by rw [hid]; decide, ?_⟩
        rw [unpackPacketCmd, hid, if_neg (by decide), if_pos (by decide), hread]
        rfl
  · have hlen := length_bytes_negotiate hneg
    have hread := vRawUnpackNegotiateCmd_pack hneg (hlen ▸ hroom)
      (lt_trans hsize (Nat.pow_lt_pow_right (by decide) (by decide))) hholds
    have hnot : ∀ id : NegotiateId, id.toByte ≠ 1 ∧ id.toByte ≠ 2 ∧ id.toByte ≤ maxSysCmdId := by
      intro id
      cases id <;> decide
    refine ⟨hid ▸ (hnot neg.id).2.2, ?_⟩
    rw [unpackPacketCmd, hid, if_neg (hnot neg.id).1, if_neg (hnot neg.id).2.1,
      NegotiateId.ofByte_toByte, Option.map_some, hread, hlen]

/-! ## All commands of a packet -/

/-- The parser stores no more commands than it has passes. -/
theorem length_unpackSysCmds_le {α : Type} (unpackCmd : Mem → ℕ → Option (ℕ × α))
    (unknown : UInt8 → α) (buf : Mem) (bufferLen room pos : ℕ) :
    (unpackSysCmds unpackCmd unknown buf bufferLen room pos).2.length ≤ room := by
  induction room generalizing pos with
  | zero => simp [unpackSysCmds]
  | succ room ih =>
      rw [unpackSysCmds]
      split
      case isFalse => simp
      case isTrue =>
        split
        case isTrue => simp
        case isFalse =>
          split
          case h_1 size cmd _ => exact Nat.succ_le_succ (ih ((pos + size) % 2 ^ 16))
          case h_2 => exact Nat.succ_le_succ (ih _)

/-- Wherever `bytes` stand in a buffer, the parser reads them as the command. -/
def SysReads {α : Type} (unpackCmd : Mem → ℕ → Option (ℕ × α)) (bytes : List UInt8) (cmd : α) :
    Prop :=
  0 < bytes.length ∧ ∀ (m : Mem) (size : ℕ), bytes.length ≤ size → size < 2 ^ 16 → Holds m bytes →
    m 0 ≤ maxSysCmdId ∧ unpackCmd m size = some (bytes.length, cmd)

/-- The parser reads the commands one by one and stops at the first byte of a node
command, at the end of the buffer, or when no room is left. -/
theorem unpackSysCmds_pieces {α : Type} {unpackCmd : Mem → ℕ → Option (ℕ × α)}
    {unknown : UInt8 → α} {pieces : List (List UInt8 × α)}
    (hreads : ∀ piece ∈ pieces, SysReads unpackCmd piece.1 piece.2) {buf : Mem}
    {bufferLen room pos : ℕ} (hroom : pieces.length ≤ room) (hlen : bufferLen < 2 ^ 16)
    (hpos : pos + (pieces.flatMap Prod.fst).length ≤ bufferLen)
    (hend : pieces.length < room → pos + (pieces.flatMap Prod.fst).length < bufferLen →
      maxSysCmdId < buf (pos + (pieces.flatMap Prod.fst).length))
    (hholds : Holds (buf.shift pos) (pieces.flatMap Prod.fst)) :
    unpackSysCmds unpackCmd unknown buf bufferLen room pos =
      (pos + (pieces.flatMap Prod.fst).length, pieces.map Prod.snd) := by
  induction pieces generalizing room pos with
  | nil =>
      simp only [List.flatMap_nil, List.length_nil, Nat.add_zero] at hend ⊢
      cases room with
      | zero => rfl
      | succ room =>
          rw [unpackSysCmds]
          split
          case isFalse => rfl
          case isTrue hlt => rw [if_pos (hend (Nat.succ_pos _) hlt)]; rfl
  | cons piece rest ih =>
      obtain ⟨bytes, cmd⟩ := piece
      obtain ⟨room, rfl⟩ : ∃ n, room = n + 1 :=
        ⟨room - 1, by simp only [List.length_cons] at hroom; omega⟩
      rw [List.flatMap_cons, List.length_append] at hpos hend ⊢
      rw [List.flatMap_cons, holds_append, shift_shift] at hholds
      simp only at hpos hend hholds ⊢
      obtain ⟨hpositive, hpiece⟩ : SysReads unpackCmd bytes cmd := hreads (bytes, cmd) (by simp)
      obtain ⟨hid, hread⟩ := hpiece (buf.shift pos) (bufferLen - pos)
        (show bytes.length ≤ bufferLen - pos by omega) (by omega) hholds.1
      rw [shift_apply, Nat.add_zero] at hid
      have hnext : (pos + bytes.length) % 2 ^ 16 = pos + bytes.length :=
        Nat.mod_eq_of_lt (by omega)
      have hrest := @ih (fun c hc => hreads c (by simp [hc])) room (pos + bytes.length)
        (by simpa using hroom) (by omega)
        (fun hmore => by rw [Nat.add_assoc]; exact hend (by simpa using hmore)) hholds.2
      rw [unpackSysCmds, if_pos (by omega), if_neg (UInt8.not_lt.mpr hid), hread]
      simp only [hnext, hrest, List.map_cons, Nat.add_assoc]

theorem SysCmd.reads {cmd : SysCmd} (hbuilt : cmd.Built) :
    SysReads unpackPacketCmd cmd.bytes cmd.readBack :=
  ⟨cmd.bytes_pos hbuilt, fun _ _ hle hlt hholds => unpackPacketCmd_pack hbuilt hle hlt hholds⟩

/-- The commands of a datagram. -/
theorem unpackSysCmds_pack {cmds : List SysCmd} (hbuilt : ∀ cmd ∈ cmds, cmd.Built) {buf : Mem}
    {bufferLen room pos : ℕ} (hroom : cmds.length ≤ room) (hlen : bufferLen < 2 ^ 16)
    (hpos : pos + (cmds.flatMap SysCmd.bytes).length ≤ bufferLen)
    (hend : cmds.length < room → pos + (cmds.flatMap SysCmd.bytes).length < bufferLen →
      maxSysCmdId < buf (pos + (cmds.flatMap SysCmd.bytes).length))
    (hholds : Holds (buf.shift pos) (cmds.flatMap SysCmd.bytes)) :
    unpackSysCmds unpackPacketCmd .unknown buf bufferLen room pos =
      (pos + (cmds.flatMap SysCmd.bytes).length, cmds.map SysCmd.readBack) := by
  have hfst : (cmds.map fun cmd => (cmd.bytes, cmd.readBack)).flatMap Prod.fst =
      cmds.flatMap SysCmd.bytes := by
    rw [List.flatMap_map]
  have hsnd : (cmds.map fun cmd => (cmd.bytes, cmd.readBack)).map Prod.snd =
      cmds.map SysCmd.readBack := by
    rw [List.map_map]
    rfl
  have hreads : ∀ piece ∈ cmds.map fun cmd => (cmd.bytes, cmd.readBack),
      SysReads unpackPacketCmd piece.1 piece.2 := by
    intro piece hpiece
    obtain ⟨cmd, hcmd, rfl⟩ := List.mem_map.mp hpiece
    exact SysCmd.reads (hbuilt cmd hcmd)
  rw [← hfst] at hpos hend hholds ⊢
  rw [← hsnd]
  exact unpackSysCmds_pieces hreads (by simpa using hroom) hlen hpos
    (fun hmore => hend (by simpa using hmore)) hholds

/-- The command comes back as it was. -/
def SysCmd.Readable : SysCmd → Prop
  | .negotiate cmd =>
      match cmd.preference with
      | .string8 _ values => ∀ last ∈ values.getLast?, cmd.headerLen ≤ last.length
      | _ => True
  | _ => True

theorem SysCmd.readBack_eq_self_iff (cmd : SysCmd) : cmd.readBack = cmd ↔ cmd.Readable := by
  cases cmd with
  | negotiate cmd =>
      obtain ⟨id, preference⟩ := cmd
      cases preference with
      | byte feature values => exact iff_of_true rfl trivial
      | fps values => exact iff_of_true rfl trivial
      | string8 feature values =>
          have hcounted := counted_eq_length_iff
            (Nat.add_comm (values.map fun str => 1 + str.length).sum
              (NegotiateCmd.mk id (.string8 feature values)).headerLen)
          refine Iff.trans ?_ hcounted
          have hle := counted_le (values.map fun str => 1 + str.length).sum
            (NegotiateCmd.mk id (.string8 feature values)).headerLen values
          simp only [SysCmd.readBack, Preference.readBack, SysCmd.negotiate.injEq,
            NegotiateCmd.mk.injEq, true_and, Preference.string8.injEq, List.take_eq_self_iff]
          omega
  | ackNak id payId => exact iff_of_true rfl trivial
  | refused id => exact iff_of_true rfl trivial
  | noFeature id feature => exact iff_of_true rfl trivial
  | unknown id => exact iff_of_true rfl trivial

theorem map_readBack_eq_self_iff (cmds : List SysCmd) :
    cmds.map SysCmd.readBack = cmds ↔ ∀ cmd ∈ cmds, cmd.Readable := by
  calc cmds.map SysCmd.readBack = cmds
      ↔ cmds.map SysCmd.readBack = cmds.map id := by rw [List.map_id]
    _ ↔ ∀ cmd ∈ cmds, cmd.readBack = cmd := List.map_inj_left
    _ ↔ ∀ cmd ∈ cmds, cmd.Readable := forall₂_congr fun cmd _ => cmd.readBack_eq_self_iff

theorem vPackDgramSystemCommands_built {cmds : List SysCmd}
    (hcount : cmds.length ≤ maxSystemCommandCount) (hbuilt : ∀ cmd ∈ cmds, cmd.Built) :
    vPackDgramSystemCommands cmds = some (cmds.flatMap SysCmd.bytes) := by
  have hmap := mapM_eq_some_map fun cmd hcmd => packSysCmd_built (hbuilt cmd hcmd)
  rw [vPackDgramSystemCommands, List.take_of_length_le hcount, hmap, Option.map_some,
    List.flatMap_def]

/-- The bytes of a datagram as it is sent. -/
def datagram (header : VPacketHeader) (cmds : List SysCmd) (nodeBytes : List UInt8) :
    Option (List UInt8) :=
  (vPackDgramSystemCommands cmds).map fun bytes => vPackPacketHeader header ++ bytes ++ nodeBytes

/-- The header and the system commands of a received datagram are those that were
sent, and node commands begin where they were put. -/
def ComesBack (header : VPacketHeader) (cmds : List SysCmd) (nodeBytes : List UInt8) (buf : Mem)
    (bufferLen : UInt16) : Prop :=
  vUnpackPacketHeader buf bufferLen.toNat = some header ∧
    vUnpackPacketSystemCommands buf bufferLen = some (bufferLen.toNat - nodeBytes.length, cmds)

instance (header : VPacketHeader) (cmds : List SysCmd) (nodeBytes : List UInt8) (buf : Mem)
    (bufferLen : UInt16) : Decidable (ComesBack header cmds nodeBytes buf bufferLen) :=
  inferInstanceAs (Decidable (_ ∧ _))

theorem length_lt_of_vUnpackPacketSystemCommands {buf : Mem} {bufferLen : UInt16} {pos : ℕ}
    {cmds : List SysCmd} (h : vUnpackPacketSystemCommands buf bufferLen = some (pos, cmds)) :
    cmds.length < maxSystemCommandCount := by
  unfold vUnpackPacketSystemCommands at h
  split at h
  case isTrue => cases h
  case isFalse =>
    split at h
    case isTrue => cases h; decide
    case isFalse =>
      have hle := length_unpackSysCmds_le unpackPacketCmd .unknown buf bufferLen.toNat
        (maxSystemCommandCount - 1) versePacketHeaderSize
      rw [Option.some.inj h] at hle
      exact Nat.lt_of_le_pred (by decide) hle

/-- What the parser makes of a datagram that was packed. -/
theorem vUnpackPacketSystemCommands_pack {header : VPacketHeader} {cmds : List SysCmd}
    {nodeBytes : List UInt8} {buf : Mem} {bufferLen : UInt16}
    (hcount : cmds.length < maxSystemCommandCount) (hbuilt : ∀ cmd ∈ cmds, cmd.Built)
    (hnode : ∀ b ∈ nodeBytes.head?, maxSysCmdId < b)
    (hlen : bufferLen.toNat =
      versePacketHeaderSize + (cmds.flatMap SysCmd.bytes).length + nodeBytes.length)
    (hholds : Holds buf (vPackPacketHeader header ++ cmds.flatMap SysCmd.bytes ++ nodeBytes)) :
    vUnpackPacketSystemCommands buf bufferLen =
      some (bufferLen.toNat - nodeBytes.length, cmds.map SysCmd.readBack) := by
  have hlt := bufferLen.toNat_lt
  rw [holds_append, holds_append, length_vPackPacketHeader, List.length_append,
    length_vPackPacketHeader] at hholds
  obtain ⟨⟨-, hcmds⟩, hrest⟩ := hholds
  have hposEq : bufferLen.toNat - nodeBytes.length =
      versePacketHeaderSize + (cmds.flatMap SysCmd.bytes).length := by omega
  rw [vUnpackPacketSystemCommands, if_neg (by omega)]
  split
  case isTrue hempty =>
    -- nothing but a header
    obtain rfl : cmds = [] := by
      cases cmds with
      | nil => rfl
      | cons cmd rest =>
          have hpositive := cmd.bytes_pos (hbuilt cmd (by simp))
          rw [List.flatMap_cons, List.length_append] at hlen
          omega
    rw [hposEq]
    rfl
  case isFalse =>
    have hend : versePacketHeaderSize + (cmds.flatMap SysCmd.bytes).length < bufferLen.toNat →
        maxSysCmdId < buf (versePacketHeaderSize + (cmds.flatMap SysCmd.bytes).length) := by
      intro hlast
      cases nodeBytes with
      | nil => simp only [List.length_nil] at hlen; omega
      | cons b rest =>
          have hb := (holds_cons.mp hrest).1
          rw [shift_apply, Nat.add_zero] at hb
          rw [hb]
          exact hnode b rfl
    rw [unpackSysCmds_pack hbuilt (show cmds.length ≤ maxSystemCommandCount - 1 by omega) hlt
      (by omega) (fun _ => hend) hcmds, hposEq]

/-- The parser stores one command less than `MAX_SYSTEM_COMMAND_COUNT`, whatever comes
behind them. -/
theorem vUnpackPacketSystemCommands_full {header : VPacketHeader} {cmds : List SysCmd}
    {tail : List UInt8} {buf : Mem} {bufferLen : UInt16}
    (hcount : cmds.length = maxSystemCommandCount - 1) (hbuilt : ∀ cmd ∈ cmds, cmd.Built)
    (hlen : bufferLen.toNat =
      versePacketHeaderSize + (cmds.flatMap SysCmd.bytes).length + tail.length)
    (hholds : Holds buf (vPackPacketHeader header ++ cmds.flatMap SysCmd.bytes ++ tail)) :
    vUnpackPacketSystemCommands buf bufferLen =
      some (versePacketHeaderSize + (cmds.flatMap SysCmd.bytes).length,
        cmds.map SysCmd.readBack) := by
  have hlt := bufferLen.toNat_lt
  rw [holds_append, holds_append, length_vPackPacketHeader] at hholds
  have hpositive : 0 < (cmds.flatMap SysCmd.bytes).length := by
    cases cmds with
    | nil => exact absurd hcount (by decide)
    | cons cmd rest =>
        have := cmd.bytes_pos (hbuilt cmd (by simp))
        rw [List.flatMap_cons, List.length_append]
        omega
  rw [vUnpackPacketSystemCommands, if_neg (by omega), if_neg (by omega),
    unpackSysCmds_pack hbuilt (Nat.le_of_eq hcount) hlt (by omega)
      (fun hmore => absurd hmore (by omega)) hholds.1.2]

/-- **When a datagram survives the wire.**  A datagram with at most
`MAX_SYSTEM_COMMAND_COUNT` system commands comes back exactly if its version has
four bits, there is a place left in the array of system commands, and the last
string of each negotiate command is at least as long as what stands before the
values. -/
theorem datagram_comesBack_iff (header : VPacketHeader) (cmds : List SysCmd)
    (nodeBytes : List UInt8) (hcount : cmds.length ≤ maxSystemCommandCount)
    (hbuilt : ∀ cmd ∈ cmds, cmd.Built) (hnode : ∀ b ∈ nodeBytes.head?, maxSysCmdId < b) :
    ∃ bytes, datagram header cmds nodeBytes = some bytes ∧
      ∀ (buf : Mem) (bufferLen : UInt16), Holds buf bytes → bufferLen.toNat = bytes.length →
        (ComesBack header cmds nodeBytes buf bufferLen ↔
          header.version < 16 ∧ cmds.length < maxSystemCommandCount ∧
            ∀ cmd ∈ cmds, cmd.Readable) := by
  refine ⟨_, by rw [datagram, vPackDgramSystemCommands_built hcount hbuilt, Option.map_some], ?_⟩
  intro buf bufferLen hholds hlen
  rw [List.length_append, List.length_append, length_vPackPacketHeader] at hlen
  have hheader := vUnpackPacketHeader_pack (show versePacketHeaderSize ≤ bufferLen.toNat by omega)
    (holds_append.mp (holds_append.mp hholds).1).1
  have hversion : vUnpackPacketHeader buf bufferLen.toNat = some header ↔ header.version < 16 := by
    rw [hheader, Option.some.injEq, ← and_low_eq_self_iff]
    refine ⟨fun h => congrArg VPacketHeader.version h, fun h => ?_⟩
    rw [h]
  rw [ComesBack, hversion, and_congr_right_iff]
  intro _
  constructor
  · intro hback
    have hlt := length_lt_of_vUnpackPacketSystemCommands hback
    rw [vUnpackPacketSystemCommands_pack hlt hbuilt hnode hlen hholds] at hback
    exact ⟨hlt, (map_readBack_eq_self_iff cmds).mp (Prod.ext_iff.mp (Option.some.inj hback)).2⟩
  · rintro ⟨hlt, hreadable⟩
    rw [vUnpackPacketSystemCommands_pack hlt hbuilt hnode hlen hholds,
      (map_readBack_eq_self_iff cmds).mpr hreadable]

/-- The header of a payload packet that also acknowledges packets. -/
def payAckHeader : VPacketHeader := ⟨1, 0xE0, 1000, 7, 3, 5⟩

/-- An ACK, the negotiated FPS and a token, followed by a node command. -/
theorem datagram_comesBack_iff_token :
    ∃ bytes, datagram payAckHeader
        [.ackNak .ack 7, .negotiate ⟨.changeL, .fps [0x42700000]⟩,
          .negotiate ⟨.confirmL, .string8 .token [[0x61, 0x62, 0x63]]⟩] [32, 2] = some bytes ∧
      ∀ (buf : Mem) (bufferLen : UInt16), Holds buf bytes → bufferLen.toNat = bytes.length →
        ComesBack payAckHeader [.ackNak .ack 7, .negotiate ⟨.changeL, .fps [0x42700000]⟩,
          .negotiate ⟨.confirmL, .string8 .token [[0x61, 0x62, 0x63]]⟩] [32, 2] buf bufferLen := by
  obtain ⟨bytes, hbytes, hiff⟩ := datagram_comesBack_iff payAckHeader
    [.ackNak .ack 7, .negotiate ⟨.changeL, .fps [0x42700000]⟩,
      .negotiate ⟨.confirmL, .string8 .token [[0x61, 0x62, 0x63]]⟩] [32, 2] (by decide)
    (by simp [SysCmd.Built, Preference.Built, maxFtrValueCount, vrsString8MaxSize])
    (by simp [maxSysCmdId])
  refine ⟨bytes, hbytes, fun buf bufferLen hholds hlen => ?_⟩
  refine (hiff buf bufferLen hholds hlen).mpr ⟨by decide, by decide, ?_⟩
  have hlen3 : (NegotiateCmd.mk .confirmL (.string8 .token [[0x61, 0x62, 0x63]])).headerLen = 3 := by
    decide
  simp [SysCmd.Readable, hlen3]

/-- A full array of ACK and NAK commands. -/
def fullAckNak : List SysCmd :=
  (List.range 64).map fun i => .ackNak (if i % 2 = 0 then .ack else .nak) (UInt32.ofNat i)

/-- The last command of a full array is lost, and so is a name of two letters. -/
theorem datagram_not_comesBack :
    (∀ bytes ∈ datagram payAckHeader fullAckNak [],
      ¬ ComesBack payAckHeader fullAckNak [] (ofBytes bytes) (UInt16.ofNat bytes.length)) ∧
    (∀ bytes ∈ datagram payAckHeader [.negotiate ⟨.changeL, .string8 .clientName [[0x76, 0x63]]⟩] [],
      ¬ ComesBack payAckHeader [.negotiate ⟨.changeL, .string8 .clientName [[0x76, 0x63]]⟩] []
        (ofBytes bytes) (UInt16.ofNat bytes.length)) ∧
    (datagram payAckHeader fullAckNak []).isSome ∧
    (datagram payAckHeader
      [.negotiate ⟨.changeL, .string8 .clientName [[0x76, 0x63]]⟩] []).isSome := by
  decide +kernel

end Verse
