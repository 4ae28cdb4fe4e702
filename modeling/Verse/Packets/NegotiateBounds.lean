import Verse.Packets.SysBounds
import Verse.Packets.SysRoundTrip

/-!
# Negotiate commands that a peer may send

`v_raw_unpack_negotiate_cmd` on any bytes.  It refuses a length that does not fit the buffer
or the header, but it takes the number of values from the length alone, while `value` has
room for `MAX_FTR_VALUE_COUNT` of them, and a string is cropped to the buffer and not to the
command.

## Strategy

`stringStart` says where the strings begin, whatever the parser makes of them.
`countStrings_starts` ties the loop of the parser to it, and `stringsFit_iff` says which
strings end before a bound; `StringsFit.unpackValues` and `stringsFit_of_same` then turn this
into independence of the bytes behind the bound.
-/

namespace Verse

open Lib

/-! ## What is asked of the parser -/

/-- `count` of what was stored. -/
def SysCmd.count : SysCmd → ℕ
  | .negotiate cmd => cmd.preference.count
  | _ => 0

/-- A size that is returned as an `int`. -/
def asInt (size : ℕ) : ℤ :=
  if size % 2 ^ 32 < 2 ^ 31 then size % 2 ^ 32 else (size % 2 ^ 32 : ℤ) - 2 ^ 32

/-- The announced length. -/
def announced (buf : Mem) : ℕ := (vCmdUnpackLen (buf.shift 1)).2.1

/-- The end of the length field. -/
def lengthEnd (buf : Mem) : ℕ := 1 + (vCmdUnpackLen (buf.shift 1)).1

/-- **Parsing is bounded**: the values fit into `value`, apart from the length field no byte
behind a command that fits the buffer matters, and a length from 1 to the size of the buffer
is returned. -/
structure NegotiateBounded (id : NegotiateId) (buf : Mem) (bufferSize : ℕ) : Prop where
  count : (vRawUnpackNegotiateCmd id buf bufferSize).2.count ≤ maxFtrValueCount
  reads : announced buf ≤ bufferSize → ∀ buf', Agree (max (announced buf) (lengthEnd buf)) buf buf' →
    vRawUnpackNegotiateCmd id buf' bufferSize = vRawUnpackNegotiateCmd id buf bufferSize
  returned : 1 ≤ asInt (vRawUnpackNegotiateCmd id buf bufferSize).1 ∧
    asInt (vRawUnpackNegotiateCmd id buf bufferSize).1 ≤ bufferSize

/-! ## The condition -/

/-- Where string number `k` begins when the first one begins at `pos`. -/
def stringStart (buf : Mem) : ℕ → ℕ → ℕ
  | 0, pos => pos
  | k + 1, pos => stringStart buf k (pos + (1 + (buf pos).toNat))

/-- Of the strings that begin before `limit` as many as `count` holds are at most
`MAX_FTR_VALUE_COUNT` and end before `last`. -/
def StringsEnd (buf : Mem) (pos limit last : ℕ) : Prop :=
  ∃ n, (∀ k < n, stringStart buf k pos < limit) ∧ limit ≤ stringStart buf n pos ∧
    n % 2 ^ 8 ≤ maxFtrValueCount ∧ stringStart buf (n % 2 ^ 8) pos ≤ last

/-- A refused command leaves a size that is an `int`; the values of a command with a known
feature are at most `MAX_FTR_VALUE_COUNT`, and strings end in the command. -/
def NegotiateFits (buf : Mem) (bufferSize : ℕ) : Prop :=
  let cmdLength := announced buf
  let headerLen := lengthEnd buf + 1
  if bufferSize < cmdLength ∨ cmdLength < headerLen then 0 < asInt bufferSize
  else
    match Preference.ofByte (buf (lengthEnd buf)) with
    | none => True
    | some (.byte _ _) => (cmdLength - headerLen) % 2 ^ 8 ≤ maxFtrValueCount
    | some (.fps _) => (cmdLength - headerLen) / 4 % 2 ^ 8 ≤ maxFtrValueCount
    | some (.string8 _ _) => StringsEnd buf headerLen (cmdLength - headerLen) cmdLength

section Strings

variable {buf : Mem}

theorem le_stringStart (k pos : ℕ) : pos ≤ stringStart buf k pos := by
  induction k generalizing pos with
  | zero => exact le_rfl
  | succ k ih =>
      calc pos ≤ pos + (1 + (buf pos).toNat) := Nat.le_add_right _ _
        _ ≤ stringStart buf k (pos + (1 + (buf pos).toNat)) := ih _

/-- The loop of the parser counts the strings that begin before the limit. -/
theorem countStrings_starts {limit fuel pos : ℕ} (hfuel : limit ≤ pos + fuel) :
    (∀ k < countStrings buf limit fuel pos, stringStart buf k pos < limit) ∧
      limit ≤ stringStart buf (countStrings buf limit fuel pos) pos := by
  induction fuel generalizing pos with
  | zero => exact ⟨fun k hk => absurd hk (Nat.not_lt_zero k), hfuel⟩
  | succ fuel ih =>
      have hval : vnpRawUnpackUint8 (buf.shift pos) = (buf pos).toNat := rfl
      rw [countStrings, hval]
      split
      case isFalse hend => exact ⟨fun k hk => absurd hk (Nat.not_lt_zero k), Nat.le_of_not_lt hend⟩
      case isTrue hpos =>
        obtain ⟨hbefore, hafter⟩ := @ih (pos + (1 + (buf pos).toNat)) (by omega)
        rw [Nat.add_comm 1]
        refine ⟨?_, hafter⟩
        intro k hk
        cases k with
        | zero => exact hpos
        | succ k => exact hbefore k (Nat.lt_of_succ_lt_succ hk)

/-- There is one such number. -/
theorem starts_unique {limit pos m n : ℕ} (hm : ∀ k < m, stringStart buf k pos < limit)
    (hm' : limit ≤ stringStart buf m pos) (hn : ∀ k < n, stringStart buf k pos < limit)
    (hn' : limit ≤ stringStart buf n pos) : m = n := by
  rcases Nat.lt_trichotomy m n with hlt | heq | hlt
  · exact absurd (hn m hlt) (Nat.not_lt.mpr hm')
  · exact heq
  · exact absurd (hm n hlt) (Nat.not_lt.mpr hn')

theorem stringsFit_iff {rest count pos : ℕ} (hpos : pos ≤ rest) :
    StringsFit buf rest count pos ↔ stringStart buf count pos ≤ rest := by
  induction count generalizing pos with
  | zero => exact iff_of_true trivial hpos
  | succ count ih =>
      rw [StringsFit, stringStart]
      constructor
      · rintro ⟨hfits, htail⟩
        exact (ih hfits).mp htail
      · intro hend
        have hfits := (@le_stringStart buf count (pos + (1 + (buf pos).toNat))).trans hend
        exact ⟨hfits, (ih hfits).mpr hend⟩

theorem stringsEnd_iff {pos limit last : ℕ} (hpos : pos ≤ last) :
    StringsEnd buf pos limit last ↔
      countStrings buf limit limit pos % 2 ^ 8 ≤ maxFtrValueCount ∧
        StringsFit buf last (countStrings buf limit limit pos % 2 ^ 8) pos := by
  obtain ⟨hbefore, hafter⟩ := @countStrings_starts buf limit limit pos (by omega)
  rw [stringsFit_iff hpos]
  constructor
  · rintro ⟨n, hn, hn', hcount, hend⟩
    rw [starts_unique hbefore hafter hn hn']
    exact ⟨hcount, hend⟩
  · rintro ⟨hcount, hend⟩
    exact ⟨_, hbefore, hafter, hcount, hend⟩

end Strings

/-! ## One command -/

section Command

variable {buf buf' : Mem} {bufferSize : ℕ}

/-- The parser in terms of the announced length. -/
theorem vRawUnpackNegotiateCmd_eq (id : NegotiateId) (buf : Mem) (bufferSize : ℕ) :
    vRawUnpackNegotiateCmd id buf bufferSize =
      if bufferSize < announced buf ∨ announced buf < lengthEnd buf + 1 then
        (bufferSize, .refused id)
      else
        match Preference.ofByte (buf (lengthEnd buf)) with
        | none => (announced buf, .noFeature id (buf (lengthEnd buf)))
        | some preference =>
            (announced buf, .negotiate ⟨id, preference.unpack buf bufferSize (announced buf)
              (lengthEnd buf + 1) (lengthEnd buf + 1)⟩) := by
  unfold vRawUnpackNegotiateCmd announced lengthEnd
  generalize vCmdUnpackLen (buf.shift 1) = len
  obtain ⟨lenSize, cmdLength, addrLen⟩ := len
  simp only
  by_cases hlong : bufferSize < cmdLength
  · rw [if_pos hlong, if_pos (Or.inl hlong)]
  · by_cases hshort : cmdLength < 1 + lenSize + 1
    · rw [if_neg hlong, if_pos hshort, if_pos (Or.inr hshort)]
    · rw [if_neg hlong, if_neg hshort]
      refine Eq.trans ?_ (if_neg (not_or.mpr ⟨hlong, hshort⟩)).symm
      cases Preference.ofByte (buf (1 + lenSize)) with
      | none => rfl
      | some preference => rfl

theorem lengthEnd_bounds (buf : Mem) : 2 ≤ lengthEnd buf ∧ lengthEnd buf ≤ 4 := by
  have hsize := vCmdUnpackLen_size (buf.shift 1)
  unfold lengthEnd
  omega

theorem announced_lt (buf : Mem) : announced buf < 2 ^ 16 := by
  unfold announced
  by_cases hlong : buf.shift 1 0 = 0xFF
  · have h0 := ((buf.shift 1).shift 1 0).toNat_lt
    have h1 := ((buf.shift 1).shift 1 1).toNat_lt
    rw [vCmdUnpackLen_long hlong]
    simp only [vnpRawUnpackUint16]
    omega
  · have h0 := (buf.shift 1 0).toNat_lt
    rw [vCmdUnpackLen_short hlong]
    simp only
    omega

/-- The length field is read the same in buffers that agree up to its end. -/
theorem length_agree {n : ℕ} (hagree : Agree n buf buf') (hn : lengthEnd buf ≤ n) :
    announced buf' = announced buf ∧ lengthEnd buf' = lengthEnd buf := by
  have hlen : vCmdUnpackLen (buf'.shift 1) = vCmdUnpackLen (buf.shift 1) := by
    refine vCmdUnpackLen_agree (hagree.shift 1) ?_
    unfold lengthEnd at hn
    omega
  exact ⟨congrArg (·.2.1) hlen, congrArg (1 + ·.1) hlen⟩

theorem length_unpackValues {α : Type} (read : ℕ → ℕ × α) (count pos : ℕ) :
    (unpackValues read count pos).length = count := by
  induction count generalizing pos with
  | zero => rfl
  | succ count ih => rw [unpackValues, List.length_cons, ih]

theorem asInt_le (size : ℕ) : asInt size ≤ size := by
  unfold asInt
  split <;> omega

theorem asInt_eq {size : ℕ} (hlt : size < 2 ^ 31) : asInt size = size := by
  unfold asInt
  split <;> omega

/-- The values of a command that fits the buffer do not depend on what follows the command
exactly if its strings end in it. -/
theorem unpack_agree_iff {preference : Preference} {cmdLength headerLen : ℕ}
    (hsize : bufferSize < 2 ^ 64) (hlt : cmdLength < 2 ^ 16) (hheader : 3 ≤ headerLen)
    (hle : headerLen ≤ cmdLength) (hroom : cmdLength ≤ bufferSize) :
    (∀ buf', Agree cmdLength buf buf' →
      preference.unpack buf' bufferSize cmdLength headerLen headerLen =
        preference.unpack buf bufferSize cmdLength headerLen headerLen) ↔
    ∀ feature values, preference = .string8 feature values →
      StringsFit buf cmdLength
        (countStrings buf (cmdLength - headerLen) (cmdLength - headerLen) headerLen % 2 ^ 8)
        headerLen := by
  constructor
  · intro hsame feature values heq
    refine stringsFit_of_same hlt hsize hroom (show cmdLength - headerLen + 3 ≤ cmdLength by omega)
      (Nat.mod_le _ _) ?_
    intro b
    have hagree := agree_set buf (le_refl cmdLength) b
    have hb := hsame _ hagree
    rw [heq, Preference.unpack_string8, Preference.unpack_string8,
      countStrings_agree hagree (show cmdLength - headerLen ≤ cmdLength by omega)] at hb
    exact (Preference.string8.inj hb).2
  · intro hstrings buf' hagree
    exact Preference.unpack_agree hlt hsize hroom hagree hheader hle le_rfl hstrings

/-- A refused command. -/
theorem negotiate_bounded_refused (id : NegotiateId)
    (hbad : bufferSize < announced buf ∨ announced buf < lengthEnd buf + 1) :
    NegotiateBounded id buf bufferSize ↔ 0 < asInt bufferSize := by
  have hres := vRawUnpackNegotiateCmd_eq id buf bufferSize
  rw [if_pos hbad] at hres
  constructor
  · intro h
    have hreturned := h.returned.1
    rw [hres] at hreturned
    exact hreturned
  · intro hpos
    refine ⟨?_, ?_, ?_⟩
    · rw [hres]
      exact Nat.zero_le _
    · intro hfits buf' hagree
      obtain ⟨hlen, hend⟩ := length_agree hagree (le_max_right _ _)
      rw [hres, vRawUnpackNegotiateCmd_eq, hlen, hend, if_pos hbad]
    · rw [hres]
      exact ⟨hpos, asInt_le bufferSize⟩

/-- A command with a good length. -/
theorem negotiate_bounded_good (id : NegotiateId)
    (hgood : ¬ (bufferSize < announced buf ∨ announced buf < lengthEnd buf + 1)) :
    NegotiateBounded id buf bufferSize ↔
      (vRawUnpackNegotiateCmd id buf bufferSize).2.count ≤ maxFtrValueCount ∧
        ∀ preference, Preference.ofByte (buf (lengthEnd buf)) = some preference →
          ∀ buf', Agree (announced buf) buf buf' →
            preference.unpack buf' bufferSize (announced buf) (lengthEnd buf + 1)
                (lengthEnd buf + 1) =
              preference.unpack buf bufferSize (announced buf) (lengthEnd buf + 1)
                (lengthEnd buf + 1) := by
  have hres : ∀ buf', Agree (announced buf) buf buf' →
      vRawUnpackNegotiateCmd id buf' bufferSize =
        match Preference.ofByte (buf (lengthEnd buf)) with
        | none => (announced buf, .noFeature id (buf (lengthEnd buf)))
        | some preference =>
            (announced buf, .negotiate ⟨id, preference.unpack buf' bufferSize (announced buf)
              (lengthEnd buf + 1) (lengthEnd buf + 1)⟩) := by
    intro buf' hagree
    obtain ⟨hlen, hend⟩ := length_agree hagree (by omega)
    rw [vRawUnpackNegotiateCmd_eq, hlen, hend, if_neg hgood, ← hagree (lengthEnd buf) (by omega)]
  have hself := hres buf (.refl _ _)
  have hmax : max (announced buf) (lengthEnd buf) = announced buf := by omega
  have hlt := announced_lt buf
  have hend := lengthEnd_bounds buf
  have hlength : (vRawUnpackNegotiateCmd id buf bufferSize).1 = announced buf := by
    rw [hself]
    cases Preference.ofByte (buf (lengthEnd buf)) with
    | none => rfl
    | some preference => rfl
  constructor
  · intro h
    refine ⟨h.count, ?_⟩
    intro preference hfeature buf' hagree
    have hsame := h.reads (by omega) buf' (hmax.symm ▸ hagree)
    rw [hres buf' hagree, hself, hfeature] at hsame
    exact (NegotiateCmd.mk.inj (SysCmd.negotiate.inj (Prod.mk.inj hsame).2)).2
  · rintro ⟨hcount, hsame⟩
    refine ⟨hcount, ?_, ?_⟩
    · intro hfits buf' hagree
      rw [hmax] at hagree
      rw [hres buf' hagree, hself]
      cases hfeature : Preference.ofByte (buf (lengthEnd buf)) with
      | none => rfl
      | some preference => simp only [hsame preference hfeature buf' hagree]
    · rw [hlength, asInt_eq (by omega)]
      omega

/-- **When parsing is bounded.** -/
theorem negotiate_bounded_iff (id : NegotiateId) (buf : Mem) {bufferSize : ℕ}
    (hsize : bufferSize < 2 ^ 63) :
    NegotiateBounded id buf bufferSize ↔ NegotiateFits buf bufferSize := by
  unfold NegotiateFits
  by_cases hbad : bufferSize < announced buf ∨ announced buf < lengthEnd buf + 1
  case pos =>
    simp only [if_pos hbad]
    exact negotiate_bounded_refused id hbad
  case neg =>
    have hlt := announced_lt buf
    have hend := lengthEnd_bounds buf
    have hres := vRawUnpackNegotiateCmd_eq id buf bufferSize
    simp only [if_neg hbad] at hres ⊢
    rw [negotiate_bounded_good id hbad]
    cases hfeature : Preference.ofByte (buf (lengthEnd buf)) with
    | none =>
        rw [hfeature] at hres
        refine iff_of_true ⟨?_, fun preference heq => nomatch heq⟩ trivial
        rw [hres]
        exact Nat.zero_le _
    | some preference =>
        rw [hfeature] at hres
        have hreads := @unpack_agree_iff buf bufferSize preference (announced buf)
          (lengthEnd buf + 1) (by omega) hlt (by omega) (by omega) (by omega)
        rw [hres]
        simp only [Option.some.injEq, forall_eq', hreads]
        cases preference with
        | byte feature values =>
            have hcount : (SysCmd.negotiate ⟨id, (Preference.byte feature values).unpack buf bufferSize
                (announced buf) (lengthEnd buf + 1) (lengthEnd buf + 1)⟩).count =
                (announced buf - (lengthEnd buf + 1)) % 2 ^ 8 := length_unpackValues _ _ _
            rw [hcount]
            exact and_iff_left fun _ _ heq => nomatch heq
        | fps values =>
            have hcount : (SysCmd.negotiate ⟨id, (Preference.fps values).unpack buf bufferSize
                (announced buf) (lengthEnd buf + 1) (lengthEnd buf + 1)⟩).count =
                (announced buf - (lengthEnd buf + 1)) / 4 % 2 ^ 8 := length_unpackValues _ _ _
            rw [hcount]
            exact and_iff_left fun _ _ heq => nomatch heq
        | string8 feature values =>
            have hcount : (SysCmd.negotiate ⟨id, (Preference.string8 feature values).unpack buf
                bufferSize (announced buf) (lengthEnd buf + 1) (lengthEnd buf + 1)⟩).count =
                countStrings buf (announced buf - (lengthEnd buf + 1))
                  (announced buf - (lengthEnd buf + 1)) (lengthEnd buf + 1) % 2 ^ 8 :=
              length_unpackValues _ _ _
            rw [hcount, stringsEnd_iff (show lengthEnd buf + 1 ≤ announced buf by omega)]
            refine and_congr_right fun _ => ⟨fun hall => hall feature values rfl, ?_⟩
            intro hfit _ _ _
            exact hfit

end Command

/-- `CHANGE_L` with two methods of flow control. -/
theorem negotiate_bounded_two : NegotiateBounded .changeL (ofBytes [3, 5, 1, 1, 2]) 5 := by
  have hfits : NegotiateFits (ofBytes [3, 5, 1, 1, 2]) 5 := by
    have hlen : announced (ofBytes [3, 5, 1, 1, 2]) = 5 := by decide +kernel
    have hend : lengthEnd (ofBytes [3, 5, 1, 1, 2]) = 2 := by decide +kernel
    have hfeature : Preference.ofByte (ofBytes [3, 5, 1, 1, 2] 2) = some (.byte .fc []) := by
      decide +kernel
    unfold NegotiateFits
    simp only [hlen, hend, hfeature]
    decide
  exact (negotiate_bounded_iff .changeL (ofBytes [3, 5, 1, 1, 2]) (by omega)).mpr hfits

/-- Six methods of flow control: the last one is stored behind `value`. -/
theorem negotiate_not_bounded :
    ¬ ∀ (id : NegotiateId) (buf : Mem) (bufferSize : ℕ), 2 ≤ bufferSize → bufferSize < 2 ^ 63 →
      NegotiateBounded id buf bufferSize := by
  intro hall
  have hcount := (hall .changeL (ofBytes [3, 9, 1, 1, 1, 1, 1, 1, 1]) 9 (by omega) (by omega)).count
  have hsix : (vRawUnpackNegotiateCmd .changeL (ofBytes [3, 9, 1, 1, 1, 1, 1, 1, 1]) 9).2.count =
      6 := by decide +kernel
  rw [hsix] at hcount
  exact absurd hcount (by decide)

end Verse
