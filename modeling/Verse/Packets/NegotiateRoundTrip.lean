import Verse.Packets.SysRoundTrip

/-!
# Which negotiate commands come back

`v_add_negotiate_cmd`, `v_raw_pack_negotiate_cmd` and `v_raw_unpack_negotiate_cmd` one after
the other.  The number of values is not sent.  For strings the parser goes from one to the
next until it stands at the size of the values, but it counts from the beginning of the
command: a last string that takes no more bytes than the header is left out.
-/

namespace Verse

open Lib

/-- `v_raw_pack_negotiate_cmd` packs what was added, and whatever stands behind it, the
parser reads the same id, feature, count and values and returns the packed length. -/
def NegotiateComesBack (id : NegotiateId) (preference : Preference) : Prop :=
  ∃ bytes, vRawPackNegotiateCmd (vAddNegotiateCmd id preference) = some bytes ∧
    ∀ (buf : Mem) (bufferSize : ℕ), Holds buf bytes → bytes.length ≤ bufferSize →
      bufferSize < 2 ^ 63 →
      vRawUnpackNegotiateCmd id buf bufferSize =
        (bytes.length, .negotiate (vAddNegotiateCmd id preference))

/-- The bytes before the values: the id, the length, which takes three bytes from 255 on, and
the feature. -/
def negotiateHeaderLen (size : ℕ) : ℕ := if 1 + 1 + 1 + size < 0xFF then 3 else 5

/-- The last string, as it is stored, is at least as long as the header. -/
def LastStringReaches : Preference → Prop
  | .string8 _ values =>
      let stored := values.map fun str => (str.takeWhile (· ≠ 0)).take vrsString8MaxSize
      ∀ last ∈ stored.getLast?,
        negotiateHeaderLen (stored.map fun str => 1 + str.length).sum ≤ last.length
  | _ => True

theorem NegotiateCmd.headerLen_eq (cmd : NegotiateCmd) :
    cmd.headerLen = negotiateHeaderLen cmd.preference.size := by
  unfold NegotiateCmd.headerLen NegotiateCmd.length vCmdPackLen negotiateHeaderLen
  by_cases hbig : 0xFF ≤ 1 + 1 + 1 + cmd.preference.size
  · rw [if_neg (Nat.not_lt.mpr hbig)]
    simp only [if_pos hbig, if_pos (show 0xFF ≤ 1 + 1 + 1 + cmd.preference.size + 2 by omega),
      List.length_append, vnpRawPackUint8, vnpRawPackUint16, List.length_cons, List.length_nil]
  · rw [if_pos (Nat.lt_of_not_le hbig)]
    simp only [if_neg hbig, vnpRawPackUint8, List.length_cons, List.length_nil]

theorem readable_iff_lastStringReaches (id : NegotiateId) (preference : Preference) :
    (SysCmd.negotiate (vAddNegotiateCmd id preference)).Readable ↔ LastStringReaches preference := by
  cases preference with
  | byte feature values => exact Iff.rfl
  | fps values => exact Iff.rfl
  | string8 feature values =>
      have hheader := (vAddNegotiateCmd id (.string8 feature values)).headerLen_eq
      simp only [SysCmd.Readable, vAddNegotiateCmd] at hheader ⊢
      rw [hheader]
      rfl

/-- **A negotiate command comes back** exactly if its last string is at least as long as its
header. -/
theorem negotiate_comesBack_iff (id : NegotiateId) {preference : Preference}
    (hcount : preference.count ≤ maxFtrValueCount) :
    NegotiateComesBack id preference ↔ LastStringReaches preference := by
  have hbuilt := vAddNegotiateCmd_built id hcount
  have hid : (vAddNegotiateCmd id preference).id = id := by cases preference <;> rfl
  have hlen := length_bytes_negotiate hbuilt
  have hpack : vRawPackNegotiateCmd (vAddNegotiateCmd id preference) =
      some (SysCmd.negotiate (vAddNegotiateCmd id preference)).bytes :=
    @packSysCmd_built (.negotiate (vAddNegotiateCmd id preference)) hbuilt
  have hback : ∀ (buf : Mem) (bufferSize : ℕ),
      Holds buf (SysCmd.negotiate (vAddNegotiateCmd id preference)).bytes →
      (SysCmd.negotiate (vAddNegotiateCmd id preference)).bytes.length ≤ bufferSize →
      bufferSize < 2 ^ 63 →
      vRawUnpackNegotiateCmd id buf bufferSize =
        ((SysCmd.negotiate (vAddNegotiateCmd id preference)).bytes.length,
          (SysCmd.negotiate (vAddNegotiateCmd id preference)).readBack) := by
    intro buf bufferSize hholds hroom hsize
    rw [hlen] at hroom ⊢
    have hread := vRawUnpackNegotiateCmd_pack hbuilt hroom (by omega) hholds
    rwa [hid] at hread
  rw [← readable_iff_lastStringReaches id, ← SysCmd.readBack_eq_self_iff]
  constructor
  · rintro ⟨bytes, hbytes, hall⟩
    obtain rfl := Option.some.inj (hpack.symm.trans hbytes)
    have hholds := holds_ofBytes (SysCmd.negotiate (vAddNegotiateCmd id preference)).bytes
    have hlt := NegotiateCmd.length_lt hbuilt
    have hsame := (hback _ _ hholds le_rfl (by omega)).symm.trans (hall _ _ hholds le_rfl (by omega))
    exact (Prod.mk.inj hsame).2
  · intro hsame
    refine ⟨_, hpack, ?_⟩
    intro buf bufferSize hholds hroom hsize
    rw [hback buf bufferSize hholds hroom hsize, hsame]

/-- A token of three letters comes back. -/
theorem negotiate_comesBack_token :
    NegotiateComesBack .changeL (.string8 .token [[97, 98, 99]]) := by
  have hcount : (Preference.string8 .token [[97, 98, 99]]).count ≤ maxFtrValueCount := by decide
  refine (negotiate_comesBack_iff .changeL hcount).mpr ?_
  intro last hlast
  obtain rfl := Option.some.inj hlast
  decide

/-- The name of two letters is not counted. -/
theorem negotiate_not_comesBack :
    ¬ ∀ (id : NegotiateId) (preference : Preference), preference.count ≤ maxFtrValueCount →
      NegotiateComesBack id preference := by
  intro hall
  obtain ⟨bytes, hpack, hback⟩ :=
    hall .changeL (.string8 .clientName [[118, 99]]) (by decide)
  have hbytes : vRawPackNegotiateCmd (vAddNegotiateCmd .changeL (.string8 .clientName [[118, 99]])) =
      some [3, 6, 9, 2, 118, 99] := by decide +kernel
  obtain rfl := Option.some.inj (hbytes.symm.trans hpack)
  have hread := hback _ 6 (holds_ofBytes [3, 6, 9, 2, 118, 99]) (by decide) (by omega)
  have hempty : vRawUnpackNegotiateCmd .changeL (ofBytes [3, 6, 9, 2, 118, 99]) 6 =
      (6, .negotiate ⟨.changeL, .string8 .clientName []⟩) := by decide +kernel
  rw [hempty] at hread
  exact absurd hread (by decide +kernel)

end Verse
