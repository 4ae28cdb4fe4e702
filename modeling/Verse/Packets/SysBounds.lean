import Verse.Packets.SysCommands
import Verse.Commands.Bounds

/-!
# Buffers whose system commands lie in the buffer

`v_unpack_packet_system_commands` does not ask whether an ACK or NAK command, or the
length of a command it does not know, still lies in the buffer, and the string of a
negotiate command is cropped one byte too late.  `SysFramed` describes the buffers for
which this does no harm.

The length field of a negotiate command that is cut by the end of the buffer does no
harm either: whatever follows, the command is refused (`vRawUnpackNegotiateCmd_cut`).
-/

namespace Verse

open Lib

/-! ## Negotiate commands -/

/-- `count` strings, the first at `pos`, end in the buffer. -/
def StringsFit (buf : Mem) (rest : ℕ) : ℕ → ℕ → Prop
  | 0, _ => True
  | count + 1, pos =>
      pos + (1 + (buf pos).toNat) ≤ rest ∧ StringsFit buf rest count (pos + (1 + (buf pos).toNat))

/-- A negotiate command begins the buffer and takes `size` bytes of it.  One with a
bad length takes all of them, and of one with strings the strings that are counted
lie in the buffer. -/
def NegotiateFramed (buf : Mem) (rest size : ℕ) : Prop :=
  let (lenSize, cmdLength, _) := vCmdUnpackLen (buf.shift 1)
  let headerLen := 1 + lenSize + 1
  let limit := cmdLength - headerLen
  if rest < cmdLength ∨ cmdLength < headerLen then size = rest
  else
    size = cmdLength ∧
      ∀ feature values, Preference.ofByte (buf (1 + lenSize)) = some (.string8 feature values) →
        StringsFit buf rest (countStrings buf limit limit headerLen % 2 ^ 8) headerLen

section Values

variable {buf buf' : Mem} {rest size : ℕ}

/-- Values of a fixed width that lie in the buffer. -/
theorem unpackValues_agree {α : Type} (read read' : ℕ → ℕ × α) (width : ℕ) (hlt : rest < 2 ^ 16)
    (hread : ∀ pos, pos + width ≤ rest → read' pos = read pos ∧ (read pos).1 = width) {count pos : ℕ}
    (hfits : pos + count * width ≤ rest) : unpackValues read' count pos = unpackValues read count pos := by
  induction count generalizing pos with
  | zero => rfl
  | succ count ih =>
      rw [Nat.succ_mul] at hfits
      obtain ⟨hsame, hwidth⟩ := hread pos (by omega)
      have hnext : (pos + width) % 2 ^ 16 = pos + width := Nat.mod_eq_of_lt (by omega)
      rw [unpackValues, unpackValues, hsame, hwidth, hnext, ih (by omega)]

/-- The strings of a negotiate command. -/
def readString8 (buf : Mem) (size : ℕ) (pos : ℕ) : ℕ × List UInt8 :=
  vnpRawUnpackString8ToString8 (buf.shift pos) (sub64 size pos) []

/-- The reader of a string that begins in the buffer. -/
theorem readString8_eq (buf : Mem) (hsize : size < 2 ^ 64) {pos : ℕ} (htwo : pos + 2 ≤ size) :
    readString8 buf size pos =
      (1 + min (buf pos).toNat (size - pos),
        (List.range (min (buf pos).toNat (size - pos))).map fun i => buf (pos + (1 + i))) := by
  have hsub := sub64_of_le hsize (show pos ≤ size by omega)
  have hval : vnpRawUnpackUint8 (buf.shift pos) = (buf pos).toNat := rfl
  have hcrop : (if size - pos < (buf pos).toNat then size - pos else (buf pos).toNat) =
      min (buf pos).toNat (size - pos) := by
    split <;> omega
  rw [readString8, hsub, vnpRawUnpackString8ToString8, if_neg (by omega), hval]
  simp only [hcrop, shift_apply]

theorem countStrings_agree (hagree : Agree rest buf buf') {limit : ℕ} (hlimit : limit ≤ rest)
    (fuel pos : ℕ) : countStrings buf' limit fuel pos = countStrings buf limit fuel pos := by
  induction fuel generalizing pos with
  | zero => rfl
  | succ fuel ih =>
      rw [countStrings, countStrings]
      split
      case isFalse => rfl
      case isTrue hpos =>
        have hval : vnpRawUnpackUint8 (buf'.shift pos) = vnpRawUnpackUint8 (buf.shift pos) :=
          congrArg UInt8.toNat (hagree pos (by omega)).symm
        rw [hval, ih]

/-- The string that is counted next begins before the limit, and the others are
counted from its end on. -/
theorem countStrings_succ {limit fuel pos count : ℕ}
    (h : count + 1 ≤ countStrings buf limit fuel pos) :
    pos < limit ∧ ∃ fuel', count ≤ countStrings buf limit fuel' (pos + (1 + (buf pos).toNat)) := by
  cases fuel with
  | zero => simp [countStrings] at h
  | succ fuel =>
      rw [countStrings] at h
      split at h
      case isFalse => omega
      case isTrue hpos =>
        refine ⟨hpos, fuel, ?_⟩
        have hval : vnpRawUnpackUint8 (buf.shift pos) = (buf pos).toNat := rfl
        rw [hval] at h
        omega

theorem StringsFit.unpackValues (hlt : rest < 2 ^ 16) (hsize : size < 2 ^ 64) (hle : rest ≤ size)
    (hagree : Agree rest buf buf') {limit : ℕ} (hlimit : limit + 3 ≤ rest) {count pos fuel : ℕ}
    (h : StringsFit buf rest count pos) (hcount : count ≤ countStrings buf limit fuel pos) :
    Verse.unpackValues (readString8 buf' size) count pos =
      Verse.unpackValues (readString8 buf size) count pos := by
  induction count generalizing pos fuel with
  | zero => rw [Verse.unpackValues, Verse.unpackValues]
  | succ count ih =>
      obtain ⟨hfits, htail⟩ := h
      obtain ⟨hpos, fuel', hcount'⟩ := countStrings_succ hcount
      have hread := readString8_eq buf hsize (show pos + 2 ≤ size by omega)
      have hread' := readString8_eq buf' hsize (show pos + 2 ≤ size by omega)
      have hmin : min (buf pos).toNat (size - pos) = (buf pos).toNat := by omega
      rw [← hagree pos (by omega)] at hread'
      rw [hmin] at hread hread'
      have hsame : readString8 buf' size pos = readString8 buf size pos := by
        rw [hread, hread']
        congr 1
        refine List.map_congr_left fun i hi => ?_
        rw [List.mem_range] at hi
        exact (hagree _ (by omega)).symm
      have hnext : (pos + (1 + (buf pos).toNat)) % 2 ^ 16 = pos + (1 + (buf pos).toNat) :=
        Nat.mod_eq_of_lt (by omega)
      have hspan : (readString8 buf size pos).1 = 1 + (buf pos).toNat := by rw [hread]
      rw [Verse.unpackValues, Verse.unpackValues, hsame, hspan, hnext, ih htail hcount']

/-- A string that goes past `rest` has the byte there. -/
theorem getElem?_past (hsize : size < 2 ^ 64) (hle : rest ≤ size) {pos : ℕ} (htwo : pos + 2 ≤ rest)
    (hlong : rest < pos + (1 + (buf pos).toNat)) :
    (readString8 buf size pos).2[rest - pos - 1]? = some (buf rest) := by
  have hindex : pos + (1 + (rest - pos - 1)) = rest := by omega
  have hlt : rest - pos - 1 < min (buf pos).toNat (size - pos) := by omega
  rw [readString8_eq _ hsize (by omega), List.getElem?_map, List.getElem?_range hlt,
    Option.map_some, hindex]

/-- Strings that do not depend on the byte at `rest` end before it. -/
theorem stringsFit_of_same (hlt : rest < 2 ^ 16) (hsize : size < 2 ^ 64) (hle : rest ≤ size)
    {limit : ℕ} (hlimit : limit + 3 ≤ rest) {count pos fuel : ℕ}
    (hcount : count ≤ countStrings buf limit fuel pos)
    (hsame : ∀ b, unpackValues (readString8 (buf.set rest b) size) count pos =
      unpackValues (readString8 buf size) count pos) : StringsFit buf rest count pos := by
  induction count generalizing pos fuel with
  | zero => exact trivial
  | succ count ih =>
      obtain ⟨hpos, fuel', hcount'⟩ := countStrings_succ hcount
      have htwo : pos + 2 ≤ rest := by omega
      have hkeep : ∀ b, buf.set rest b pos = buf pos := fun b => set_of_ne buf (by omega) b
      have hhead : ∀ b, (readString8 (buf.set rest b) size pos).2 = (readString8 buf size pos).2 :=
        fun b => (List.cons.inj (hsame b)).1
      have hfits : pos + (1 + (buf pos).toNat) ≤ rest := by
        by_contra hlong
        have hbyte : ∀ b, (readString8 buf size pos).2[rest - pos - 1]? = some b := by
          intro b
          rw [← hhead b, getElem?_past hsize hle htwo (by rw [hkeep]; omega), set_self]
        exact absurd (Option.some.inj ((hbyte 0).symm.trans (hbyte 1))) (by decide)
      have hspans : ∀ b, (readString8 (buf.set rest b) size pos).1 = (readString8 buf size pos).1 := by
        intro b
        rw [readString8_eq _ hsize (by omega), readString8_eq _ hsize (by omega), hkeep]
      have hspan : (readString8 buf size pos).1 = 1 + (buf pos).toNat := by
        rw [readString8_eq _ hsize (by omega)]
        simp only
        omega
      have hnext : (pos + (1 + (buf pos).toNat)) % 2 ^ 16 = pos + (1 + (buf pos).toNat) :=
        Nat.mod_eq_of_lt (by omega)
      refine ⟨hfits, ih hcount' fun b => ?_⟩
      have htail := (List.cons.inj (hsame b)).2
      rwa [hspans, hspan, hnext] at htail

theorem Preference.unpack_string8 (feature : StringFtr) (values : List (List UInt8))
    (cmdLength headerLen pos : ℕ) :
    (Preference.string8 feature values).unpack buf size cmdLength headerLen pos =
      .string8 feature (unpackValues (readString8 buf size)
        (countStrings buf (cmdLength - headerLen) (cmdLength - headerLen) pos % 2 ^ 8) pos) := by
  unfold Preference.unpack readString8
  rfl

/-- The values of a negotiate command that lies in the buffer. -/
theorem Preference.unpack_agree (hlt : rest < 2 ^ 16) (hsize : size < 2 ^ 64) (hrest : rest ≤ size)
    (hagree : Agree rest buf buf') {cmdLength headerLen : ℕ} (hheader : 3 ≤ headerLen) (hle : headerLen ≤ cmdLength)
    (hroom : cmdLength ≤ rest) {preference : Preference}
    (hstrings : ∀ feature values, preference = .string8 feature values →
      StringsFit buf rest
        (countStrings buf (cmdLength - headerLen) (cmdLength - headerLen) headerLen % 2 ^ 8)
        headerLen) :
    preference.unpack buf' size cmdLength headerLen headerLen =
      preference.unpack buf size cmdLength headerLen headerLen := by
  cases preference with
  | byte feature values =>
      have hmod := Nat.mod_le (cmdLength - headerLen) (2 ^ 8)
      have hsame := unpackValues_agree (fun pos => (1, buf pos)) (fun pos => (1, buf' pos)) 1 hlt
        (fun pos hpos => ⟨by rw [hagree pos (by omega)], rfl⟩)
        (show headerLen + (cmdLength - headerLen) % 2 ^ 8 * 1 ≤ rest by omega)
      unfold Preference.unpack
      rw [hsame]
  | fps values =>
      have hmod := Nat.mod_le ((cmdLength - headerLen) / 4) (2 ^ 8)
      have hsame := unpackValues_agree
        (fun pos => (4, UInt32.ofNat (vnpRawUnpackUint32 (buf.shift pos))))
        (fun pos => (4, UInt32.ofNat (vnpRawUnpackUint32 (buf'.shift pos)))) 4 hlt
        (fun pos hpos => ⟨by rw [vnpRawUnpackUint32_agree (hagree.shift pos) (by omega)], rfl⟩)
        (show headerLen + (cmdLength - headerLen) / 4 % 2 ^ 8 * 4 ≤ rest by omega)
      unfold Preference.unpack
      rw [hsame]
  | string8 feature values =>
      rw [Preference.unpack_string8, Preference.unpack_string8,
        countStrings_agree hagree (show cmdLength - headerLen ≤ rest by omega)]
      rw [(hstrings feature values rfl).unpackValues hlt hsize hrest hagree
        (show cmdLength - headerLen + 3 ≤ rest by omega) (Nat.mod_le _ _)]

/-- A negotiate command whose length field is cut by the end of the buffer is
refused. -/
theorem vRawUnpackNegotiateCmd_cut (id : NegotiateId)
    (hcut : rest < 1 + (vCmdUnpackLen (buf.shift 1)).1) :
    vRawUnpackNegotiateCmd id buf rest = (rest, .refused id) := by
  unfold vRawUnpackNegotiateCmd
  generalize vCmdUnpackLen (buf.shift 1) = len at hcut
  obtain ⟨lenSize, cmdLength, addrLen⟩ := len
  simp only at hcut ⊢
  split
  case isTrue => rfl
  case isFalse => exact if_pos (by omega)

/-- Where the length field lies in the buffer it does not depend on what follows. -/
theorem lenSize_agree (hagree : Agree rest buf buf') (hpos : 1 ≤ rest)
    (hcut : rest < 1 + (vCmdUnpackLen (buf.shift 1)).1) :
    rest < 1 + (vCmdUnpackLen (buf'.shift 1)).1 := by
  have hsize := (vCmdUnpackLen_size (buf'.shift 1)).1
  by_cases hone : rest = 1
  · omega
  · have hsame : buf' 1 = buf 1 := (hagree 1 (by omega)).symm
    by_cases hlong : buf 1 = 0xFF
    · rw [vCmdUnpackLen_long hlong] at hcut
      rw [vCmdUnpackLen_long (hsame.trans hlong)]
      exact hcut
    · rw [vCmdUnpackLen_short hlong] at hcut
      simp only at hcut
      omega

theorem NegotiateFramed.vRawUnpackNegotiateCmd (hlt : rest < 2 ^ 16) (hpos : 1 ≤ rest)
    (hagree : Agree rest buf buf') {size : ℕ} (h : NegotiateFramed buf rest size)
    (id : NegotiateId) :
    Verse.vRawUnpackNegotiateCmd id buf' rest = Verse.vRawUnpackNegotiateCmd id buf rest ∧
      (Verse.vRawUnpackNegotiateCmd id buf rest).1 = size ∧ size ≤ rest := by
  by_cases hcut : rest < 1 + (vCmdUnpackLen (buf.shift 1)).1
  case pos =>
    rw [vRawUnpackNegotiateCmd_cut id hcut,
      vRawUnpackNegotiateCmd_cut id (lenSize_agree hagree hpos hcut)]
    refine ⟨rfl, ?_⟩
    unfold NegotiateFramed at h
    generalize vCmdUnpackLen (buf.shift 1) = len at h hcut
    obtain ⟨lenSize, cmdLength, addrLen⟩ := len
    simp only at h hcut
    rw [if_pos (by omega)] at h
    exact ⟨h.symm, h.le⟩
  case neg =>
    have hlen' := vCmdUnpackLen_agree (hagree.shift 1) (by omega)
    unfold Verse.vRawUnpackNegotiateCmd
    unfold NegotiateFramed at h
    rw [hlen']
    have hlenSize := (vCmdUnpackLen_size (buf.shift 1)).1
    generalize vCmdUnpackLen (buf.shift 1) = len at h hcut hlenSize
    obtain ⟨lenSize, cmdLength, addrLen⟩ := len
    simp only at h hcut hlenSize ⊢
    split at h
    case isTrue hbad =>
      subst h
      by_cases hlong : size < cmdLength
      · rw [if_pos hlong, if_pos hlong]
        exact ⟨rfl, rfl, le_rfl⟩
      · rw [if_neg hlong, if_neg hlong, if_pos (hbad.resolve_left hlong),
          if_pos (hbad.resolve_left hlong)]
        exact ⟨rfl, rfl, le_rfl⟩
    case isFalse hgood =>
      obtain ⟨rfl, hstrings⟩ := h
      have hnotLong : ¬ rest < size := fun hlong => hgood (.inl hlong)
      have hnotShort : ¬ size < 1 + lenSize + 1 := fun hshort => hgood (.inr hshort)
      rw [if_neg hnotLong, if_neg hnotLong, if_neg hnotShort, if_neg hnotShort,
        ← hagree (1 + lenSize) (by omega)]
      cases hfeature : Preference.ofByte (buf (1 + lenSize)) with
      | none => exact ⟨rfl, rfl, by omega⟩
      | some preference =>
          simp only
          rw [Preference.unpack_agree hlt (by omega) le_rfl hagree (by omega) (by omega) (by omega)
            fun feature values heq => hstrings feature values (by rw [hfeature, heq])]
          exact ⟨rfl, trivial, by omega⟩

/-- A negotiate command that does not depend on the byte behind the buffer. -/
theorem negotiateFramed_of_same (hlt : rest < 2 ^ 16) (id : NegotiateId)
    (hsame : ∀ b, (Verse.vRawUnpackNegotiateCmd id (buf.set rest b) rest).2 =
      (Verse.vRawUnpackNegotiateCmd id buf rest).2) :
    NegotiateFramed buf rest (Verse.vRawUnpackNegotiateCmd id buf rest).1 := by
  by_cases hcut : rest < 1 + (vCmdUnpackLen (buf.shift 1)).1
  case pos =>
    rw [vRawUnpackNegotiateCmd_cut id hcut]
    unfold NegotiateFramed
    generalize vCmdUnpackLen (buf.shift 1) = len at hcut
    obtain ⟨lenSize, cmdLength, addrLen⟩ := len
    simp only at hcut
    exact (if_pos (by omega)).mpr rfl
  case neg =>
    have hlen' : ∀ b, vCmdUnpackLen ((buf.set rest b).shift 1) = vCmdUnpackLen (buf.shift 1) :=
      fun b => vCmdUnpackLen_agree ((agree_set buf le_rfl b).shift 1) (by omega)
    have hlenSize := (vCmdUnpackLen_size (buf.shift 1)).1
    unfold Verse.vRawUnpackNegotiateCmd at hsame ⊢
    unfold NegotiateFramed
    simp only [hlen'] at hsame
    generalize vCmdUnpackLen (buf.shift 1) = len at hcut hsame hlenSize ⊢
    obtain ⟨lenSize, cmdLength, addrLen⟩ := len
    simp only at hcut hsame hlenSize ⊢
    by_cases hlong : rest < cmdLength
    · rw [if_pos hlong, if_pos (.inl hlong)]
    by_cases hshort : cmdLength < 1 + lenSize + 1
    · rw [if_neg hlong, if_pos hshort, if_pos (.inr hshort)]
    simp only [if_neg hlong, if_neg hshort] at hsame ⊢
    rw [if_neg (not_or.mpr ⟨hlong, hshort⟩)]
    cases hfeature : Preference.ofByte (buf (1 + lenSize)) with
    | none => exact ⟨rfl, fun feature values heq => nomatch heq⟩
    | some preference =>
        refine ⟨rfl, ?_⟩
        rintro feature values ⟨⟩
        -- the values are the same, whatever byte follows
        refine stringsFit_of_same hlt (by omega) le_rfl
          (show cmdLength - (1 + lenSize + 1) + 3 ≤ rest by omega) (Nat.mod_le _ _) fun b => ?_
        have hb := hsame b
        rw [set_of_ne buf (show 1 + lenSize ≠ rest by omega), hfeature] at hb
        simp only [Preference.unpack_string8, true_and, SysCmd.negotiate.injEq,
          NegotiateCmd.mk.injEq, Preference.string8.injEq] at hb
        rwa [countStrings_agree (agree_set buf le_rfl b)
          (show cmdLength - (1 + lenSize + 1) ≤ rest by omega)] at hb

end Values

/-! ## The loop -/

/-- The command is none that the parser knows. -/
def Unknown (id : UInt8) : Prop := id ≤ maxSysCmdId ∧ id ≠ 1 ∧ id ≠ 2 ∧ NegotiateId.ofByte id = none

/-- From a position on the system commands lie in the buffer: the five bytes of an
ACK or NAK command, the length of an unknown command, and what `NegotiateFramed`
asks of a negotiate command. -/
inductive SysFramed (buf : Mem) (bufferLen : ℕ) : ℕ → ℕ → Prop where
  | full {pos : ℕ} (hpos : pos ≤ bufferLen) : SysFramed buf bufferLen 0 pos
  | atEnd {room : ℕ} : SysFramed buf bufferLen (room + 1) bufferLen
  | node {room pos : ℕ} (hpos : pos < bufferLen) (hid : maxSysCmdId < buf pos) :
      SysFramed buf bufferLen (room + 1) pos
  | ackNak {room pos : ℕ} (hpos : pos + 5 ≤ bufferLen) (hid : buf pos = 1 ∨ buf pos = 2)
      (hrest : SysFramed buf bufferLen room (pos + 5)) : SysFramed buf bufferLen (room + 1) pos
  | negotiate {room pos size : ℕ} {id : NegotiateId} (hpos : pos < bufferLen)
      (hid : NegotiateId.ofByte (buf pos) = some id)
      (hcmd : NegotiateFramed (buf.shift pos) (bufferLen - pos) size)
      (hrest : SysFramed buf bufferLen room (pos + size)) : SysFramed buf bufferLen (room + 1) pos
  | unknown {room pos : ℕ} (hpos : pos + 1 < bufferLen) (hid : Unknown (buf pos))
      (hrest : SysFramed buf bufferLen room
        (pos + min (buf (pos + 1)).toNat (bufferLen - pos))) :
      SysFramed buf bufferLen (room + 1) pos

/-- A pass of the loop: the next position and the command. -/
def sysStep (buf : Mem) (bufferLen pos : ℕ) : ℕ × SysCmd :=
  match unpackPacketCmd (buf.shift pos) (bufferLen - pos) with
  | some (size, cmd) => ((pos + size) % 2 ^ 16, cmd)
  | none =>
      let length := vnpRawUnpackUint8 (buf.shift (pos + 1))
      (if length < bufferLen - pos then (pos + length) % 2 ^ 16 else bufferLen, .unknown (buf pos))

/-- The parser of system commands. -/
def parseSys (buf : Mem) (bufferLen room pos : ℕ) : ℕ × List SysCmd :=
  unpackSysCmds unpackPacketCmd .unknown buf bufferLen room pos

section Loop

variable {buf : Mem} {bufferLen : ℕ}

theorem parseSys_stop {room pos : ℕ} (h : bufferLen ≤ pos ∨ maxSysCmdId < buf pos) :
    parseSys buf bufferLen room pos = (pos, []) := by
  cases room with
  | zero => rfl
  | succ room =>
      rw [parseSys, unpackSysCmds]
      split
      case isFalse => rfl
      case isTrue hpos => rw [if_pos (h.resolve_left (by omega))]

theorem parseSys_succ {room pos : ℕ} (hpos : pos < bufferLen) (hid : buf pos ≤ maxSysCmdId) :
    parseSys buf bufferLen (room + 1) pos =
      ((parseSys buf bufferLen room (sysStep buf bufferLen pos).1).1,
        (sysStep buf bufferLen pos).2 ::
          (parseSys buf bufferLen room (sysStep buf bufferLen pos).1).2) := by
  rw [parseSys, unpackSysCmds, if_pos hpos, if_neg (UInt8.not_lt.mpr hid), sysStep]
  cases unpackPacketCmd (buf.shift pos) (bufferLen - pos) <;> rfl

theorem sysStep_ackNak {pos : ℕ} (hid : buf pos = 1 ∨ buf pos = 2) :
    sysStep buf bufferLen pos =
      ((pos + 5) % 2 ^ 16, .ackNak (if buf pos = 1 then .ack else .nak)
        (UInt32.ofNat (vnpRawUnpackUint32 (buf.shift (pos + 1))))) := by
  have h0 : buf.shift pos 0 = buf pos := rfl
  unfold sysStep unpackPacketCmd vRawUnpackAckNakCmd
  rw [h0, shift_shift]
  obtain hone | htwo := hid
  · rw [hone]
    rfl
  · rw [htwo]
    rfl

theorem sysStep_negotiate {pos : ℕ} {id : NegotiateId}
    (hid : NegotiateId.ofByte (buf pos) = some id) :
    sysStep buf bufferLen pos =
      ((pos + (vRawUnpackNegotiateCmd id (buf.shift pos) (bufferLen - pos)).1) % 2 ^ 16,
        (vRawUnpackNegotiateCmd id (buf.shift pos) (bufferLen - pos)).2) := by
  have h0 : buf.shift pos 0 = buf pos := rfl
  have hone : buf pos ≠ 1 := fun h => by rw [h] at hid; cases hid
  have htwo : buf pos ≠ 2 := fun h => by rw [h] at hid; cases hid
  unfold sysStep unpackPacketCmd
  rw [h0, if_neg hone, if_neg htwo, hid, Option.map_some]

theorem sysStep_unknown (hlt : bufferLen < 2 ^ 16) {pos : ℕ} (hpos : pos < bufferLen)
    (hid : Unknown (buf pos)) :
    sysStep buf bufferLen pos =
      (pos + min (buf (pos + 1)).toNat (bufferLen - pos), .unknown (buf pos)) := by
  obtain ⟨-, hone, htwo, hnone⟩ := hid
  have h0 : buf.shift pos 0 = buf pos := rfl
  have hval : vnpRawUnpackUint8 (buf.shift (pos + 1)) = (buf (pos + 1)).toNat := rfl
  unfold sysStep unpackPacketCmd
  rw [h0, if_neg hone, if_neg htwo, hnone, Option.map_none]
  simp only [hval, Prod.mk.injEq, and_true]
  split <;> omega

/-- What a byte of a command that is no node command can be. -/
theorem sys_id_cases {id : UInt8} (h : id ≤ maxSysCmdId) :
    (id = 1 ∨ id = 2) ∨ (∃ neg, NegotiateId.ofByte id = some neg) ∨ Unknown id := by
  by_cases hone : id = 1
  · exact .inl (.inl hone)
  by_cases htwo : id = 2
  · exact .inl (.inr htwo)
  cases hneg : NegotiateId.ofByte id with
  | some neg => exact .inr (.inl ⟨neg, rfl⟩)
  | none => exact .inr (.inr ⟨h, hone, htwo, hneg⟩)

theorem le_maxSysCmdId_of_ofByte {id : UInt8} {neg : NegotiateId}
    (h : NegotiateId.ofByte id = some neg) : id ≤ maxSysCmdId := by
  unfold NegotiateId.ofByte at h
  split at h
  · subst id; decide
  split at h
  · subst id; decide
  split at h
  · subst id; decide
  split at h
  · subst id; decide
  · cases h

/-- The parser of system commands gives the same result whatever follows the buffer,
and it does not go past the end of the buffer. -/
def SysSafe (buf : Mem) (bufferLen room pos : ℕ) : Prop :=
  ∃ last cmds, last ≤ bufferLen ∧ ∀ buf', Agree bufferLen buf buf' →
    parseSys buf' bufferLen room pos = (last, cmds)

/-- A command that is read the same whatever follows, and what is behind it. -/
theorem sysSafe_succ {room pos next : ℕ} (hpos : pos < bufferLen) (hid : buf pos ≤ maxSysCmdId)
    (hnext : (sysStep buf bufferLen pos).1 = next)
    (hstep : ∀ buf', Agree bufferLen buf buf' →
      sysStep buf' bufferLen pos = sysStep buf bufferLen pos) :
    SysSafe buf bufferLen (room + 1) pos ↔ SysSafe buf bufferLen room next := by
  have hunfold : ∀ buf', Agree bufferLen buf buf' → parseSys buf' bufferLen (room + 1) pos =
      ((parseSys buf' bufferLen room next).1,
        (sysStep buf bufferLen pos).2 :: (parseSys buf' bufferLen room next).2) := by
    intro buf' hagree
    rw [parseSys_succ hpos (by rwa [← hagree pos hpos]), hstep buf' hagree, hnext]
  constructor
  · rintro ⟨last, cmds, hlast, hall⟩
    refine ⟨last, cmds.tail, hlast, fun buf' hagree => ?_⟩
    have h := hall buf' hagree
    rw [hunfold buf' hagree] at h
    cases h
    rfl
  · rintro ⟨last, cmds, hlast, hall⟩
    refine ⟨last, (sysStep buf bufferLen pos).2 :: cmds, hlast, fun buf' hagree => ?_⟩
    rw [hunfold buf' hagree, hall buf' hagree]

theorem sysSafe_stop {room pos : ℕ} (hpos : pos ≤ bufferLen)
    (h : bufferLen ≤ pos ∨ maxSysCmdId < buf pos) : SysSafe buf bufferLen room pos := by
  refine ⟨pos, [], hpos, fun buf' hagree => parseSys_stop ?_⟩
  by_cases hend : bufferLen ≤ pos
  · exact .inl hend
  · exact .inr (hagree pos (by omega) ▸ h.resolve_left hend)

theorem le_maxSysCmdId_of_ackNak {id : UInt8} (h : id = 1 ∨ id = 2) : id ≤ maxSysCmdId := by
  obtain rfl | rfl := h <;> decide

theorem sysSafe_ackNak (hlt : bufferLen < 2 ^ 16) {room pos : ℕ} (hpos : pos + 5 ≤ bufferLen)
    (hid : buf pos = 1 ∨ buf pos = 2) :
    SysSafe buf bufferLen (room + 1) pos ↔ SysSafe buf bufferLen room (pos + 5) := by
  refine sysSafe_succ (by omega) (le_maxSysCmdId_of_ackNak hid) ?_ fun buf' hagree => ?_
  · rw [sysStep_ackNak hid]
    exact Nat.mod_eq_of_lt (by omega)
  · have hsame := hagree pos (by omega)
    rw [sysStep_ackNak hid, sysStep_ackNak (by rwa [← hsame]), ← hsame,
      vnpRawUnpackUint32_agree (hagree.shift (pos + 1)) (by omega)]

theorem sysSafe_negotiate (hlt : bufferLen < 2 ^ 16) {room pos size : ℕ} {id : NegotiateId}
    (hpos : pos < bufferLen) (hid : NegotiateId.ofByte (buf pos) = some id)
    (hcmd : NegotiateFramed (buf.shift pos) (bufferLen - pos) size) :
    SysSafe buf bufferLen (room + 1) pos ↔ SysSafe buf bufferLen room (pos + size) := by
  refine sysSafe_succ hpos (le_maxSysCmdId_of_ofByte hid) ?_ fun buf' hagree => ?_
  · obtain ⟨-, hsize, hle⟩ := hcmd.vRawUnpackNegotiateCmd (by omega) (by omega) (.refl _ _) id
    rw [sysStep_negotiate hid, hsize]
    exact Nat.mod_eq_of_lt (by omega)
  · obtain ⟨hsame, -⟩ := hcmd.vRawUnpackNegotiateCmd (by omega) (by omega) (hagree.shift pos) id
    rw [sysStep_negotiate hid, sysStep_negotiate (by rwa [← hagree pos hpos]), hsame]

theorem sysSafe_unknown (hlt : bufferLen < 2 ^ 16) {room pos : ℕ} (hpos : pos + 1 < bufferLen)
    (hid : Unknown (buf pos)) :
    SysSafe buf bufferLen (room + 1) pos ↔
      SysSafe buf bufferLen room (pos + min (buf (pos + 1)).toNat (bufferLen - pos)) := by
  refine sysSafe_succ (by omega) hid.1 ?_ fun buf' hagree => ?_
  · rw [sysStep_unknown hlt (by omega) hid]
  · have hsame := hagree pos (by omega)
    rw [sysStep_unknown hlt (by omega) hid, sysStep_unknown hlt (by omega) (by rwa [← hsame]),
      ← hsame, ← hagree (pos + 1) hpos]

/-- **Framed system commands** are read as they are, whatever follows. -/
theorem SysFramed.sysSafe (hlt : bufferLen < 2 ^ 16) {room pos : ℕ}
    (h : SysFramed buf bufferLen room pos) : SysSafe buf bufferLen room pos := by
  induction h with
  | full hpos => exact ⟨_, [], hpos, fun _ _ => rfl⟩
  | atEnd => exact sysSafe_stop le_rfl (.inl le_rfl)
  | node hpos hid => exact sysSafe_stop hpos.le (.inr hid)
  | ackNak hpos hid _ ih => exact (sysSafe_ackNak hlt hpos hid).mpr ih
  | negotiate hpos hid hcmd _ ih => exact (sysSafe_negotiate hlt hpos hid hcmd).mpr ih
  | unknown hpos hid _ ih => exact (sysSafe_unknown hlt hpos hid).mpr ih

/-! ## What is not framed -/

theorem eq_of_vnpRawUnpackUint32_eq {m m' : Mem}
    (h : UInt32.ofNat (vnpRawUnpackUint32 m) = UInt32.ofNat (vnpRawUnpackUint32 m')) {i : ℕ}
    (hi : i < 4) : m i = m' i := by
  have hbound : ∀ m : Mem, vnpRawUnpackUint32 m < 2 ^ 32 := by
    intro m
    have h0 := (m 0).toNat_lt
    have h1 := (m 1).toNat_lt
    have h2 := (m 2).toNat_lt
    have h3 := (m 3).toNat_lt
    unfold vnpRawUnpackUint32
    omega
  have heq : vnpRawUnpackUint32 m = vnpRawUnpackUint32 m' := by
    have := congrArg UInt32.toNat h
    rwa [UInt32.toNat_ofNat', UInt32.toNat_ofNat', Nat.mod_eq_of_lt (hbound m),
      Nat.mod_eq_of_lt (hbound m')] at this
  unfold vnpRawUnpackUint32 at heq
  have h0 := (m 0).toNat_lt
  have h1 := (m 1).toNat_lt
  have h2 := (m 2).toNat_lt
  have h3 := (m 3).toNat_lt
  have h0' := (m' 0).toNat_lt
  have h1' := (m' 1).toNat_lt
  have h2' := (m' 2).toNat_lt
  have h3' := (m' 3).toNat_lt
  apply UInt8.toNat_inj.mp
  obtain rfl | rfl | rfl | rfl : i = 0 ∨ i = 1 ∨ i = 2 ∨ i = 3 := by omega
  all_goals omega

/-- The command that is read does not depend on the byte behind the buffer. -/
theorem SysSafe.step_set {room pos : ℕ} (h : SysSafe buf bufferLen (room + 1) pos)
    (hpos : pos < bufferLen) (hid : buf pos ≤ maxSysCmdId) (b : UInt8) :
    (sysStep (buf.set bufferLen b) bufferLen pos).2 = (sysStep buf bufferLen pos).2 := by
  obtain ⟨last, cmds, -, hall⟩ := h
  have hset := hall _ (agree_set buf le_rfl b)
  have hself := hall buf (.refl _ _)
  rw [parseSys_succ hpos (by rwa [set_of_ne buf (by omega)])] at hset
  rw [parseSys_succ hpos hid] at hself
  have hlist := congrArg Prod.snd (hset.trans hself.symm)
  exact (List.cons.inj hlist).1

/-- An ACK or NAK command that is cut by the end of the buffer is seen in what is
stored. -/
theorem SysSafe.ackNak_fits {room pos : ℕ} (h : SysSafe buf bufferLen (room + 1) pos)
    (hpos : pos < bufferLen) (hid : buf pos = 1 ∨ buf pos = 2) : pos + 5 ≤ bufferLen := by
  by_contra hcut
  have hbyte : ∀ b, b = buf bufferLen := by
    intro b
    have hstep := h.step_set hpos (le_maxSysCmdId_of_ackNak hid) b
    have hkeep : buf.set bufferLen b pos = buf pos := set_of_ne buf (by omega) b
    rw [sysStep_ackNak hid, sysStep_ackNak (by rwa [hkeep]), hkeep] at hstep
    have hpay := (SysCmd.ackNak.inj hstep).2
    have hlast := eq_of_vnpRawUnpackUint32_eq hpay (show bufferLen - (pos + 1) < 4 by omega)
    rwa [shift_apply, shift_apply, Nat.add_sub_of_le (by omega), set_self] at hlast
  exact absurd ((hbyte 0).trans (hbyte 1).symm) (by decide)

/-- An unknown command of one byte is skipped or read again. -/
theorem SysSafe.unknown_fits (hlt : bufferLen < 2 ^ 16) {room pos : ℕ}
    (h : SysSafe buf bufferLen (room + 1) pos) (hpos : pos < bufferLen) (hid : Unknown (buf pos)) :
    pos + 1 < bufferLen := by
  by_contra hcut
  obtain rfl : bufferLen = pos + 1 := by omega
  obtain ⟨last, cmds, -, hall⟩ := h
  have hkeep : ∀ b, buf.set (pos + 1) b pos = buf pos := fun b => set_of_ne buf (by omega) b
  have hparse : ∀ b, parseSys (buf.set (pos + 1) b) (pos + 1) (room + 1) pos =
      ((parseSys (buf.set (pos + 1) b) (pos + 1) room (pos + min b.toNat 1)).1,
        .unknown (buf pos) ::
          (parseSys (buf.set (pos + 1) b) (pos + 1) room (pos + min b.toNat 1)).2) := by
    intro b
    have hstep := sysStep_unknown hlt hpos (show Unknown (buf.set (pos + 1) b pos) by rwa [hkeep])
    rw [hkeep, set_self, Nat.add_sub_cancel_left] at hstep
    rw [parseSys_succ hpos (by rw [hkeep]; exact hid.1), hstep]
  have hzero := hall _ (agree_set buf le_rfl 0)
  have hone := hall _ (agree_set buf le_rfl 1)
  rw [hparse] at hzero hone
  -- with the length 1 the parser stops, with the length 0 it is where it was
  rw [show pos + min (1 : UInt8).toNat 1 = pos + 1 from rfl, parseSys_stop (.inl le_rfl)] at hone
  rw [show pos + min (0 : UInt8).toNat 1 = pos from rfl] at hzero
  have hsame := hzero.trans hone.symm
  cases room with
  | zero => exact absurd (congrArg Prod.fst hsame) (Nat.ne_of_lt (Nat.lt_succ_self pos))
  | succ room =>
      have hlist := (List.cons.inj (congrArg Prod.snd hsame)).2
      rw [parseSys_succ hpos (by rw [hkeep]; exact hid.1)] at hlist
      cases hlist

/-- **System commands that are read safely are framed.** -/
theorem sysFramed_of_safe (hlt : bufferLen < 2 ^ 16) {room pos : ℕ}
    (h : SysSafe buf bufferLen room pos) : SysFramed buf bufferLen room pos := by
  induction room generalizing pos with
  | zero =>
      obtain ⟨last, cmds, hlast, hall⟩ := h
      have hself := hall buf (.refl _ _)
      cases hself
      exact .full hlast
  | succ room ih =>
      by_cases hpos : pos < bufferLen
      case neg =>
        obtain ⟨last, cmds, hlast, hall⟩ := h
        have hself := hall buf (.refl _ _)
        rw [parseSys_stop (.inl (Nat.le_of_not_lt hpos))] at hself
        cases hself
        obtain rfl : pos = bufferLen := by omega
        exact .atEnd
      case pos =>
        by_cases hnode : maxSysCmdId < buf pos
        · exact .node hpos hnode
        obtain hid | ⟨id, hid⟩ | hid := sys_id_cases (UInt8.not_lt.mp hnode)
        · have hfits := h.ackNak_fits hpos hid
          exact .ackNak hfits hid (ih ((sysSafe_ackNak hlt hfits hid).mp h))
        · have hsame : ∀ b, (vRawUnpackNegotiateCmd id ((buf.shift pos).set (bufferLen - pos) b)
              (bufferLen - pos)).2 =
                (vRawUnpackNegotiateCmd id (buf.shift pos) (bufferLen - pos)).2 := by
            intro b
            have hstep := h.step_set hpos (le_maxSysCmdId_of_ofByte hid) b
            have hkeep : buf.set bufferLen b pos = buf pos := set_of_ne buf (by omega) b
            rw [sysStep_negotiate hid, sysStep_negotiate (by rwa [hkeep])] at hstep
            rw [← shift_set, Nat.add_sub_of_le hpos.le]
            exact hstep
          have hcmd := negotiateFramed_of_same (by omega) id hsame
          exact .negotiate hpos hid hcmd (ih ((sysSafe_negotiate hlt hpos hid hcmd).mp h))
        · have hfits := h.unknown_fits hlt hpos hid
          exact .unknown hfits hid (ih ((sysSafe_unknown hlt hfits hid).mp h))

theorem sysSafe_iff (hlt : bufferLen < 2 ^ 16) {room pos : ℕ} :
    SysSafe buf bufferLen room pos ↔ SysFramed buf bufferLen room pos :=
  ⟨sysFramed_of_safe hlt, SysFramed.sysSafe hlt⟩

end Loop

/-! ## Both parsers -/

/-- `v_unpack_packet_system_commands` gives the same commands and the same position
whatever follows the buffer, and the position is in the buffer. -/
def SysParserSafe (buf : Mem) (bufferLen : UInt16) : Prop :=
  ∃ result : Option (ℕ × List SysCmd), (∀ pos cmds, result = some (pos, cmds) → pos ≤ bufferLen.toNat) ∧
    ∀ buf', Agree bufferLen.toNat buf buf' → vUnpackPacketSystemCommands buf' bufferLen = result

/-- `v_cmd_unpack` returns, pushes the same commands and gives the same position
whatever follows the buffer, and the position is in the buffer. -/
def NodeParserSafe (buf : Mem) (bufferLen : UInt16) : Prop :=
  ∃ pos cmds, pos ≤ bufferLen.toNat ∧
    ∀ buf', Agree bufferLen.toNat buf buf' → vCmdUnpack buf' bufferLen = some (pos, cmds)

theorem sysParserSafe_iff (buf : Mem) (bufferLen : UInt16) :
    SysParserSafe buf bufferLen ↔ bufferLen.toNat ≤ versePacketHeaderSize ∨
      SysFramed buf bufferLen.toNat (maxSystemCommandCount - 1) versePacketHeaderSize := by
  by_cases hsmall : bufferLen.toNat ≤ versePacketHeaderSize
  · -- nothing is read of a buffer that has no more than a header
    refine iff_of_true ⟨vUnpackPacketSystemCommands buf bufferLen, ?_, fun buf' _ => ?_⟩ (.inl hsmall)
    · intro pos cmds h
      unfold vUnpackPacketSystemCommands at h
      split at h
      case isTrue => cases h
      case isFalse hlong =>
        rw [if_pos (by omega)] at h
        cases h
        omega
    · unfold vUnpackPacketSystemCommands
      split
      case isTrue => rfl
      case isFalse hlong => rw [if_pos (by omega), if_pos (by omega)]
  · have hparse : ∀ buf', vUnpackPacketSystemCommands buf' bufferLen =
        some (parseSys buf' bufferLen.toNat (maxSystemCommandCount - 1) versePacketHeaderSize) := by
      intro buf'
      rw [vUnpackPacketSystemCommands, if_neg (by omega), if_neg (by omega), parseSys]
    rw [or_iff_right hsmall, ← sysSafe_iff bufferLen.toNat_lt]
    constructor
    · rintro ⟨result, hpos, hall⟩
      have hself := (hall buf (.refl _ _)).symm.trans (hparse buf)
      generalize parseSys buf bufferLen.toNat (maxSystemCommandCount - 1) versePacketHeaderSize =
        parsed at hself
      obtain ⟨last, cmds⟩ := parsed
      refine ⟨last, cmds, hpos last cmds hself, fun buf' hagree => ?_⟩
      have h := (hparse buf').symm.trans (hall buf' hagree)
      rw [hself] at h
      exact Option.some.inj h
    · rintro ⟨last, cmds, hlast, hall⟩
      refine ⟨some (last, cmds), fun pos cmds' h => ?_, fun buf' hagree => ?_⟩
      · cases h
        exact hlast
      · rw [hparse, hall buf' hagree]

/-- **When the parsers do not read too far.**  System commands: exactly if the buffer
has no more than a header or its system commands lie in it.  Node commands: exactly
if the buffer is filled with commands that lie in it. -/
theorem parsers_safe_iff (buf : Mem) (bufferLen : UInt16) :
    (SysParserSafe buf bufferLen ↔ bufferLen.toNat ≤ versePacketHeaderSize ∨
      SysFramed buf bufferLen.toNat (maxSystemCommandCount - 1) versePacketHeaderSize) ∧
    (NodeParserSafe buf bufferLen ↔ NodeFramed buf bufferLen.toNat 0) :=
  ⟨sysParserSafe_iff buf bufferLen, nodeSafe_iff bufferLen.toNat_lt (Nat.le_add_left _ _)⟩

/-- The id of an ACK command without its payload id, and a Node_Destroy command that
is cut after two of the four bytes of its node id. -/
theorem parsers_not_safe :
    ¬ SysParserSafe (ofBytes (List.replicate 16 0 ++ [1])) 17 ∧
      ¬ NodeParserSafe (ofBytes [33, 6, 0, 0]) 4 := by
  constructor
  · rintro ⟨result, hpos, hall⟩
    have hself := hall _ (.refl _ _)
    have heval : vUnpackPacketSystemCommands (ofBytes (List.replicate 16 0 ++ [1])) 17 =
        some (21, [.ackNak .ack 0]) := by
      decide +kernel
    exact absurd (hpos 21 _ (hself.symm.trans heval)) (by decide)
  · rintro ⟨pos, cmds, hpos, hall⟩
    have hself := hall _ (.refl _ _)
    have heval : (vCmdUnpack (ofBytes [33, 6, 0, 0]) 4).map Prod.fst = some 6 := by
      decide +kernel
    rw [hself] at heval
    obtain rfl : pos = 6 := Option.some.inj heval
    exact absurd hpos (by decide)

end Verse
