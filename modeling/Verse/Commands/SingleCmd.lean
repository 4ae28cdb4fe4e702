import Verse.Commands.RoundTrip

/-!
# One command by itself

A stream message, and a command with a string in a packet, hold commands that are not
part of a group: `v_cmd_pack` writes the command with its own size as the length, and
nothing is shared.  Such a command comes back wherever it stands, with one exception:
the parser takes a string of which only the length byte is left for no string at all,
so that an empty string is lost at the end of the buffer.
-/

namespace Verse

open Lib

/-- A node command as the functions that create commands build it. -/
structure GenericCmd.Built (cmd : GenericCmd) : Prop where
  isNode : cmd.layout.isNodeCmd = true
  sized : cmd.data.length = cmd.layout.dataSize
  fixed : cmd.layout.varLen = false → cmd.str = none
  string : cmd.layout.varLen = true → cmd.StrOk

/-- What `v_STREAM_pack_message` writes for a command. -/
def GenericCmd.alone (cmd : GenericCmd) : Option (List UInt8) := vCmdPack cmd (vCmdSize cmd) 0

/-- The command ends with an empty string. -/
def GenericCmd.EmptyString (cmd : GenericCmd) : Prop :=
  cmd.layout.varLen = true ∧ strLen cmd = 0

/-! ## The table -/

theorem cmdStructTable_cmdSize :
    ∀ s ∈ cmdStructTable, s.isNodeCmd = true → s.varLen = false → s.cmdSize < 0xFF := by
  decide +kernel

theorem cmdStructTable_varLen : ∀ s ∈ cmdStructTable, s.varLen = true → s = tagSetString8 := by
  decide +kernel

theorem cmdStruct_cmdSize {id : ℕ} (hnode : (cmdStruct id).isNodeCmd = true)
    (hfixed : (cmdStruct id).varLen = false) : (cmdStruct id).cmdSize < 0xFF := by
  rcases cmdStruct_mem id with hmem | hres
  · exact cmdStructTable_cmdSize _ hmem hnode hfixed
  · rw [hres] at hnode
    cases hnode

/-- `Tag_Set_String8` is the only command with a string. -/
theorem cmdStruct_varLen {id : ℕ} (h : (cmdStruct id).varLen = true) :
    cmdStruct id = tagSetString8 := by
  rcases cmdStruct_mem id with hmem | hres
  · exact cmdStructTable_varLen _ hmem h
  · rw [hres] at h
    cases h

/-! ## Commands of fixed length -/

/-- The group of one command. -/
def GenericCmd.group (cmd : GenericCmd) (h : cmd.Built) (hfixed : cmd.layout.varLen = false) :
    CmdGroup where
  id := cmd.id
  keys := 0
  first := cmd
  others := []
  isNode := h.isNode
  fixedLen := hfixed
  sameId := by simp
  sized := by
    have hsize := (cmdStruct_sound h.isNode).fixedSize hfixed
    simpa using And.intro (h.sized.trans hsize) (h.fixed hfixed)
  keys_le := Nat.zero_le _
  noShare _ := rfl
  agree := by simp

theorem GenericCmd.alone_fixed {cmd : GenericCmd} (h : cmd.Built)
    (hfixed : cmd.layout.varLen = false) :
    ∃ bytes, cmd.alone = some bytes ∧ bytes.head? = some cmd.id ∧ Reads bytes [cmd] := by
  have hsmall := cmdStruct_cmdSize h.isNode hfixed
  have hsize := (cmdStruct_sound h.isNode).cmdSize hfixed
  have hcmdSize : vCmdSize cmd = cmd.layout.cmdSize := by
    simp [vCmdSize, h.isNode, hfixed]
  have hshare : (cmd.group h hfixed).share = 0 := rfl
  have hlength : (cmd.group h hfixed).length = vCmdSize cmd := by
    have hlayout : (cmd.group h hfixed).layout = cmd.layout := rfl
    have hone : (cmd.group h hfixed).cmds.length = 1 := rfl
    have hsmall' : cmd.layout.cmdSize < 0xFF := hsmall
    have hsize' : cmd.layout.cmdSize = cmd.layout.size + if cmd.layout.sharesAddr then 3 else 2 :=
      hsize
    rw [CmdGroup.length, hshare, hlayout, hone, hcmdSize, groupLength]
    cases hs : cmd.layout.sharesAddr with
    | true =>
        simp only [hs, if_true] at hsize' ⊢
        rw [if_pos (by omega)]
        omega
    | false =>
        simp only [hs, Bool.false_eq_true, if_false] at hsize' ⊢
        rw [if_pos (by omega)]
        omega
  have hlt : (cmd.group h hfixed).length < 2 ^ 16 := by
    rw [hlength, hcmdSize]
    exact lt_trans hsmall (by decide)
  have hne : vCmdSize cmd ≠ 0 := by
    rw [hcmdSize]
    intro hzero
    rw [show cmd.layout.cmdSize = _ from hsize] at hzero
    split at hzero <;> omega
  have hpack : vCmdPack cmd (vCmdSize cmd) 0 =
      some ((cmd.group h hfixed).bytes (cmd.group h hfixed).length) := by
    have hfirst := CmdGroup.vCmdPack_first (g := cmd.group h hfixed) hne
    rw [hlength]
    refine hfirst.trans ?_
    simp [CmdGroup.bytes, GenericCmd.group]
  refine ⟨_, hpack, ?_, CmdGroup.reads hlt⟩
  simp [CmdGroup.bytes, CmdGroup.header, vnpRawPackUint8, GenericCmd.group]

/-! ## Commands with a string -/

theorem vCmdSize_string {cmd : GenericCmd} (hlayout : cmd.layout = tagSetString8) :
    vCmdSize cmd = 12 + strLen cmd := by
  simp only [vCmdSize, hlayout]
  rfl

theorem wire_string_length {cmd : GenericCmd} (hok : cmd.StrOk) :
    (wire cmd tagSetString8.items).length = 9 + strLen cmd := by
  have hstring : (packItem cmd ⟨.string8, 8, 8⟩).length = 1 + strLen cmd :=
    length_packItem_string rfl hok
  simp only [wire, tagSetString8, List.flatMap_cons, List.flatMap_nil, List.length_append, hstring,
    List.length_nil]
  simp only [packItem, vnpRawPackUint32, vnpRawPackUint16, List.length_cons, List.length_nil]
  omega

/-- The bytes of a command with a string. -/
def GenericCmd.stringBytes (cmd : GenericCmd) : List UInt8 :=
  vnpRawPackUint8 cmd.id.toNat ++ vCmdPackLen (vCmdSize cmd) ++ vnpRawPackUint8 0 ++
    wire cmd tagSetString8.items

theorem length_vCmdPackLen (length : ℕ) :
    (vCmdPackLen length).length = if 0xFF ≤ length then 3 else 1 := by
  unfold vCmdPackLen
  split <;> rfl

/-- What stands before the items of a command with a string. -/
def stringHeader (id : UInt8) (length : ℕ) : List UInt8 :=
  vnpRawPackUint8 id.toNat ++ vCmdPackLen length ++ vnpRawPackUint8 0

theorem length_stringHeader (id : UInt8) (length : ℕ) :
    (stringHeader id length).length = if 0xFF ≤ length then 5 else 3 := by
  have hlen := length_vCmdPackLen length
  simp only [stringHeader, vnpRawPackUint8, List.length_append, List.length_cons, List.length_nil]
  split at hlen <;> simp_all

/-- The pass over the items reads the string command. -/
theorem unpackNext_string {cmd : GenericCmd} (h : cmd.Built) (hlayout : cmd.layout = tagSetString8)
    {buf : Mem} {bufferLen pos : ℕ} (hbuf : bufferLen < 2 ^ 16)
    (hroom : pos + (wire cmd tagSetString8.items).length ≤ bufferLen)
    (hempty : 0 < strLen cmd ∨ pos + (wire cmd tagSetString8.items).length < bufferLen)
    (hholds : Holds (buf.shift pos) (wire cmd tagSetString8.items)) :
    unpackNext buf bufferLen cmd.id 0 0 none pos =
      (pos + (wire cmd tagSetString8.items).length, cmd) := by
  have hok : cmd.StrOk := h.string (by rw [hlayout]; rfl)
  have hsized : cmd.data.length = 8 := h.sized.trans (by rw [hlayout]; rfl)
  have hcmdStruct : cmdStruct cmd.id.toNat = tagSetString8 := hlayout
  have hmalloc : (GenericCmd.malloc cmd.id).data.length = cmd.data.length := by
    rw [hsized, GenericCmd.malloc, hcmdStruct]
    rfl
  have hconsecutive : Consecutive 0 tagSetString8.items := by decide
  have hwidth : 0 + widthSum tagSetString8.items = cmd.data.length := by
    rw [hsized]
    rfl
  have hread := unpackItems_wire (show bufferLen < 2 ^ 32 by omega) hconsecutive hwidth hroom hholds
    (fun _ _ _ => ⟨hok, hempty⟩) hmalloc rfl
  have hitems : tagSetString8.items.take tagSetString8.itemCount = tagSetString8.items := rfl
  simp only [unpackNext, hcmdStruct, hitems]
  rw [hread, if_pos (by decide)]
  rfl

/-- The head of a string command is read whatever length it announces. -/
theorem vCmdUnpackOne_stringHeader {id : UInt8} (hlayout : cmdStruct id.toNat = tagSetString8)
    {length : ℕ} (hlt : length < 2 ^ 16) {buf : Mem} (bufferLen : ℕ)
    (hholds : Holds buf (stringHeader id length)) :
    vCmdUnpackOne buf bufferLen =
      unpackVar buf bufferLen id 0 0 length length none (stringHeader id length).length := by
  have hidLen : (vnpRawPackUint8 id.toNat).length = 1 := rfl
  have hlength : (stringHeader id length).length = 1 + (vCmdPackLen length).length + 1 := by
    rw [stringHeader, List.length_append, List.length_append]
    rfl
  rw [stringHeader, List.append_assoc, holds_append, hidLen, holds_append, shift_shift] at hholds
  obtain ⟨hid, hlen, hshare⟩ := hholds
  have hid0 : buf 0 = id := holds_vnpRawPackUint8 hid
  have hread := CmdGroup.vCmdUnpackLen_pack hlt hlen
  have hshare0 : (buf (1 + (vCmdPackLen length).length)).toNat = 0 := by
    have hzero := hshare 0 (by simp [vnpRawPackUint8])
    rw [shift_apply, Nat.add_zero] at hzero
    rw [hzero]
    rfl
  rw [hlength]
  simp only [vCmdUnpackOne, hid0, hread, hlayout, hshare0, unpackData]
  rfl

theorem vCmdUnpackOne_string {cmd : GenericCmd} (h : cmd.Built)
    (hlayout : cmd.layout = tagSetString8) {buf : Mem} {bufferLen : ℕ} (hbuf : bufferLen < 2 ^ 16)
    (hroom : cmd.stringBytes.length ≤ bufferLen)
    (hempty : 0 < strLen cmd ∨ cmd.stringBytes.length < bufferLen)
    (hholds : Holds buf cmd.stringBytes) :
    vCmdUnpackOne buf bufferLen = some (cmd.stringBytes.length, [cmd]) := by
  have hok : cmd.StrOk := h.string (by rw [hlayout]; rfl)
  have hsize := vCmdSize_string hlayout
  have hwire := wire_string_length hok
  have hstr : strLen cmd ≤ 255 := by
    obtain ⟨s, hs, hlen, -⟩ := hok
    rw [strLen, hs]
    exact hlen
  have hheader := length_stringHeader cmd.id (vCmdSize cmd)
  have hbytes : cmd.stringBytes =
      stringHeader cmd.id (vCmdSize cmd) ++ wire cmd tagSetString8.items := rfl
  rw [hbytes, List.length_append] at hroom hempty ⊢
  rw [hbytes, holds_append] at hholds
  have hnext := unpackNext_string h hlayout hbuf hroom hempty hholds.2
  rw [vCmdUnpackOne_stringHeader hlayout (show vCmdSize cmd < 2 ^ 16 by omega) bufferLen hholds.1]
  -- the first pass goes behind the announced length, so there is no second one
  obtain ⟨fuel, hfuel⟩ : ∃ n, vCmdSize cmd = n + 2 := ⟨vCmdSize cmd - 2, by omega⟩
  generalize (stringHeader cmd.id (vCmdSize cmd)).length = pos at *
  have hpos : pos < vCmdSize cmd := by split at hheader <;> omega
  have hend : ¬ pos + (wire cmd tagSetString8.items).length < vCmdSize cmd := by
    split at hheader <;> omega
  rw [hfuel] at hpos hend ⊢
  rw [unpackVar_next hpos, hnext]
  simp only
  rw [unpackVar_end hend]
  rfl

/-- **A command by itself.**  It is packed, its first byte is its id, and it comes
back, if it does not end with an empty string at the end of the buffer. -/
theorem GenericCmd.alone_reads {cmd : GenericCmd} (h : cmd.Built) :
    ∃ bytes, cmd.alone = some bytes ∧ bytes.head? = some cmd.id ∧ ReadsInside bytes [cmd] ∧
      (¬ cmd.EmptyString → ReadsAtEnd bytes [cmd]) := by
  cases hvar : cmd.layout.varLen with
  | false =>
      obtain ⟨bytes, hpack, hhead, hreads⟩ := GenericCmd.alone_fixed h hvar
      exact ⟨bytes, hpack, hhead, hreads.inside, fun _ => hreads.atEnd⟩
  | true =>
      have hlayout := cmdStruct_varLen hvar
      have hlayout' : cmd.layout = tagSetString8 := hlayout
      have hsize := vCmdSize_string hlayout'
      have hlength : 2 ≤ cmd.stringBytes.length := by
        simp only [GenericCmd.stringBytes, vnpRawPackUint8, List.length_append, List.length_cons,
          List.length_nil]
        omega
      refine ⟨cmd.stringBytes, ?_, ?_, ⟨hlength, ?_⟩, fun hempty => ⟨hlength, ?_⟩⟩
      · have hitems : packItems cmd 0 = wire cmd tagSetString8.items := by
          rw [packItems, hlayout']
          rfl
        rw [GenericCmd.alone, vCmdPack, if_pos (by omega), hitems, hlayout']
        rfl
      · simp [GenericCmd.stringBytes, vnpRawPackUint8]
      · intro buf bufferLen hbuf hlt hholds
        exact vCmdUnpackOne_string h hlayout' hbuf hlt.le (Or.inr hlt) hholds
      · intro buf hlt hholds
        refine vCmdUnpackOne_string h hlayout' hlt (Nat.le_refl _) (Or.inl ?_) hholds
        exact Nat.pos_of_ne_zero fun hzero => hempty ⟨hvar, hzero⟩

end Verse
