import Verse.Lib.CStrings
import Verse.Lib.Stores
import Verse.Server.Handshake

/-!
# Upgrade requests

`http_handshake` of `vs_websocket.c` up to the response: it reads a header until its last
bytes are an empty line, and `http_header_find_field_value` looks for the fields that the
upgrade to a WebSocket needs.

`Requested` says what is asked for: some line of the header begins with the name of the
field and a colon, and the value is a word of its own in this line.  The search stops at the
first line with the field and at the first place of the value from there on.

A header that fills the array leaves no place for the zero byte behind it.

## Strategy

`httpHeaderFindFieldValue_spec` describes the search by the first line with the field and the
first place of the value in it (`FirstRequested`); it rests on what `strstr` finds.
`readHeader_inBounds_iff` is by induction on what `read` gives.
-/

namespace Verse

open Lib

/-! ## The search of a field -/

/-- The end of a line. -/
def crlf : List UInt8 := [13, 10]

/-- `isalnum`; no byte above 127 is a letter. -/
def isalnum (c : UInt8) : Bool := (48 ≤ c && c ≤ 57) || (65 ≤ c && c ≤ 90) || (97 ≤ c && c ≤ 122)

/-- The name of a field begins at `p` behind the end of a line, and there is a colon behind
it that is not behind the end of the header. -/
def isFieldAt (header field : List UInt8) (p : ℕ) : Bool :=
  2 ≤ p && header[p - 2]? == some 13 && header[p - 1]? == some 10 &&
    p + field.length + 1 ≤ (stringFrom header 0).length && header[p + field.length]? == some 58

/-- The loop over the places of the name; `none` is a search without an end. -/
def findField (header field : List UInt8) : ℕ → ℕ → Option (Option ℕ)
  | 0, _ => none
  | fuel + 1, start =>
      match strstr header (start + 1) field with
      | none => some none
      | some p => if isFieldAt header field p then some (some p) else findField header field fuel p

/-- `http_header_find_field_value`; the inner `none` is `NULL`. -/
def httpHeaderFindFieldValue (header field : List UInt8) (value : Option (List UInt8)) :
    Option (Option ℕ) :=
  (findField header field (header.length + 1) 0).map fun found =>
    found.bind fun p =>
      (strstr header p crlf).bind fun next =>
        match value with
        | none => some (p + field.length + 1)
        | some value =>
            (strstr header p value).bind fun q =>
              if next < q then none
              else if isalnum (header.getD (q - 1) 0) || isalnum (header.getD (q + value.length) 0) then
                none
              else some q

/-! ## The handshake -/

/-- The size of the array `header`. -/
def httpHeaderSize : ℕ := 16384

/-- What `read` gives, where no bytes are the end of the stream; or an error of `select` or
`read`, or the end of the time. -/
inductive ReadEvent where
  | data (bytes : List UInt8)
  | failed

inductive HeaderEnd where
  | waiting
  | refused
  | complete
  deriving DecidableEq, Repr

/-- What was read, and everything that was stored into the array. -/
structure HeaderBuffer where
  header : List UInt8
  stores : List (ℕ × UInt8)

/-- The end of the loop was reached: the last bytes are an empty line. -/
def headerEnds (header : List UInt8) : Bool :=
  4 ≤ header.length && header.drop (header.length - 4) == crlf ++ crlf

/-- The loop of `http_handshake` and the zero byte behind the header. -/
def readHeader (buffer : HeaderBuffer) : List ReadEvent → HeaderBuffer × HeaderEnd
  | [] => (buffer, .waiting)
  | .failed :: _ => (buffer, .refused)
  | .data bytes :: rest =>
      -- `read` gives no more than there is place for
      let piece := bytes.take (httpHeaderSize - buffer.header.length)
      if piece = [] then (buffer, .refused)
      else
        let header := buffer.header ++ piece
        let stores := buffer.stores ++ bytesAt buffer.header.length piece
        if headerEnds header then (⟨header, stores ++ [(header.length, 0)]⟩, .complete)
        else if header.length = httpHeaderSize then (⟨header, stores⟩, .refused)
        else readHeader ⟨header, stores⟩ rest

/-- `header_length` is 0. -/
def emptyHeader : HeaderBuffer := ⟨[], []⟩

/-- `WS_CLIENT_KEY_LEN`. -/
def wsClientKeyLen : ℕ := 24

/-- The length of the key that begins at `p`, without the blanks before it. -/
def clientKeyLength (header : List UInt8) (p : ℕ) : ℕ :=
  (((header.drop p).dropWhile (· = 32)).takeWhile fun c => c ≠ 13 && c ≠ 32).length

/-- The checks of `http_handshake` on a complete header: whether a response is sent. -/
def httpHandshakeAccepts (header : List UInt8) : Option Bool :=
  (httpHeaderFindFieldValue header (ascii "Upgrade") (some (ascii "websocket"))).bind fun upgrade =>
    if upgrade.isNone then some false
    else
      (httpHeaderFindFieldValue header (ascii "Connection") (some (ascii "Upgrade"))).bind fun conn =>
        if conn.isNone then some false
        else
          (httpHeaderFindFieldValue header (ascii "Sec-WebSocket-Key") none).bind fun key =>
            match key with
            | none => some false
            | some start =>
                (httpHeaderFindFieldValue header (ascii "Sec-WebSocket-Protocol")
                  (some (ascii "v1.verse.tul.cz"))).map fun proto =>
                    proto.isSome && clientKeyLength header start == wsClientKeyLen

/-! ## What is asked for -/

/-- The name of a field or a value, as `http_handshake` looks for them: no zero byte and no
end of a line is in it. -/
structure HeaderWord where
  text : List UInt8
  ne_nil : text ≠ []
  no_nul : 0 ∉ text
  no_cr : 13 ∉ text

/-- A line begins behind the end of another one. -/
def LineStart (header : List UInt8) (p : ℕ) : Prop := 2 ≤ p ∧ StandsAt header crlf (p - 2)

/-- The line that begins at `p` ends at `e`. -/
structure HeaderLine (header : List UInt8) (p e : ℕ) : Prop where
  start : LineStart header p
  le : p ≤ e
  stop : StandsAt header crlf e
  first : ∀ i, p ≤ i → i < e → ¬ StandsAt header crlf i

/-- The name of the field and a colon stand at `p`. -/
def Names (header : List UInt8) (field : HeaderWord) (p : ℕ) : Prop :=
  StandsAt header (field.text ++ [58]) p

instance (header : List UInt8) (field : HeaderWord) (p : ℕ) : Decidable (Names header field p) :=
  inferInstanceAs (Decidable (StandsAt header (field.text ++ [58]) p))

/-- The value at `q` is in the line, and not part of a longer word. -/
structure TokenIn (header : List UInt8) (value : HeaderWord) (p e q : ℕ) : Prop where
  stands : StandsAt header value.text q
  lower : p ≤ q
  upper : q + value.text.length ≤ e
  left : isalnum (header.getD (q - 1) 0) = false
  right : isalnum (header.getD (q + value.text.length) 0) = false

/-- Some line begins with the field and has the value. -/
def Requested (header : List UInt8) (field value : HeaderWord) : Prop :=
  ∃ p e q, HeaderLine header p e ∧ Names header field p ∧ TokenIn header value p e q

/-- **The condition**: the first line with the field has the value, the first place of the
value from there on is this one, and no zero byte comes before the end of the line. -/
def FirstRequested (header : List UInt8) (field value : HeaderWord) : Prop :=
  ∃ p e q, HeaderLine header p e ∧ Names header field p ∧ TokenIn header value p e q ∧
    (∀ j < p, LineStart header j → ¬ Names header field j) ∧
    (∀ j, p ≤ j → j < q → ¬ StandsAt header value.text j) ∧ Unbroken header 0 e

section Search

variable {header : List UInt8} {field value : HeaderWord} {p e q : ℕ}

theorem HeaderWord.length_pos (word : HeaderWord) : 0 < word.text.length :=
  List.length_pos_iff.mpr word.ne_nil

theorem lineStart_iff : LineStart header p ↔
    2 ≤ p ∧ header[p - 2]? = some 13 ∧ header[p - 1]? = some 10 := by
  unfold LineStart
  refine and_congr_right fun hp => ?_
  have hsplit : StandsAt header crlf (p - 2) ↔
      StandsAt header [13] (p - 2) ∧ StandsAt header [10] (p - 2 + 1) :=
    @standsAt_append header [13] [10] (p - 2)
  rw [hsplit, standsAt_singleton, standsAt_singleton, show p - 2 + 1 = p - 1 by omega]

theorem names_iff : Names header field p ↔
    StandsAt header field.text p ∧ header[p + field.text.length]? = some 58 := by
  rw [Names, standsAt_append, standsAt_singleton]

theorem Names.unbroken (h : Names header field p) :
    Unbroken header p (p + field.text.length + 1) := by
  have hnul : 0 ∉ field.text ++ [58] := by
    intro hmem
    rcases List.mem_append.mp hmem with hmem | hmem
    · exact field.no_nul hmem
    · exact absurd hmem (by decide)
  have := StandsAt.unbroken h hnul
  rwa [List.length_append, List.length_singleton, ← Nat.add_assoc] at this

/-- What the loop looks for. -/
def IsField (header : List UInt8) (field : HeaderWord) (p : ℕ) : Prop :=
  StandsAt header field.text p ∧ isFieldAt header field.text p = true

/-- The loop takes the lines that begin with the field, up to the first zero byte. -/
theorem isField_iff : IsField header field p ↔
    LineStart header p ∧ Names header field p ∧ Unbroken header 0 p := by
  have hbreak : p + field.text.length + 1 ≤ (stringFrom header 0).length ↔
      Unbroken header 0 (p + field.text.length + 1) := by
    rw [← le_length_stringFrom (Nat.zero_le _), Nat.zero_add]
  unfold IsField isFieldAt
  simp only [Bool.and_eq_true, decide_eq_true_eq, beq_iff_eq, hbreak]
  rw [lineStart_iff]
  constructor
  · rintro ⟨hstands, ⟨⟨⟨hp, hcr⟩, hlf⟩, hunbroken⟩, hcolon⟩
    exact ⟨⟨hp, hcr, hlf⟩, names_iff.mpr ⟨hstands, hcolon⟩,
      hunbroken.mono (Nat.le_refl 0) (by omega)⟩
  · rintro ⟨⟨hp, hcr, hlf⟩, hnames, hunbroken⟩
    have hfield := names_iff.mp hnames
    exact ⟨hfield.1, ⟨⟨⟨hp, hcr⟩, hlf⟩, hunbroken.trans hnames.unbroken⟩, hfield.2⟩

/-- **The loop comes to its end**, at the first line with the field. -/
theorem findField_first {fuel start : ℕ} (hstart : start ≤ header.length)
    (hfuel : header.length + 1 ≤ start + fuel) :
    ∃ found, findField header field.text fuel start = some found ∧
      FirstFrom header (IsField header field) (start + 1) found := by
  induction fuel generalizing start with
  | zero => omega
  | succ fuel ih =>
      rw [findField]
      have hsearch : FirstFrom header (StandsAt header field.text) (start + 1)
          (strstr header (start + 1) field.text) := strstr_first field.no_nul
      cases hfind : strstr header (start + 1) field.text with
      | none =>
          rw [hfind] at hsearch
          exact ⟨none, rfl, fun q hq hunbroken hfield => hsearch q hq hunbroken hfield.1⟩
      | some p =>
          rw [hfind] at hsearch
          obtain ⟨hlo, hunbroken, hstands, hmiss⟩ := hsearch
          by_cases hfield : isFieldAt header field.text p = true
          · refine ⟨some p, if_pos hfield, hlo, hunbroken, ⟨hstands, hfield⟩, ?_⟩
            exact fun j hj hjp hisField => hmiss j hj hjp hisField.1
          · have hname := hstands.unbroken field.no_nul
            have hpos := field.length_pos
            have hlen : p < header.length := by
              by_contra hge
              refine hname p (Nat.le_refl p) (by omega) ?_
              rw [List.getD_eq_getElem?_getD, List.getElem?_eq_none (by omega)]
              rfl
            obtain ⟨found, hfound, hfirst⟩ := @ih p (by omega) (by omega)
            refine ⟨found, (if_neg hfield).trans hfound, hfirst.skip hlo ?_ ?_⟩
            · exact hunbroken.trans (hname.mono (Nat.le_refl p) (by omega))
            · intro j hj hjp hisField
              rcases Nat.lt_or_eq_of_le hjp with hlt | rfl
              · exact hmiss j hj hlt hisField.1
              · exact hfield hisField.2

/-- A value in front of the end of a line is in the line. -/
theorem value_in_line (hvalue : StandsAt header value.text q) (he : StandsAt header crlf e)
    (hle : q ≤ e) : q + value.text.length ≤ e := by
  by_contra hover
  have hcr : header.getD e 0 = 13 := he.getD (i := 0) (by decide)
  exact value.no_cr (hcr ▸ hvalue.mem_of_getD hle (by omega))

/-- **The search finds the first line with the field, and its value if this is the first.** -/
theorem httpHeaderFindFieldValue_spec (header : List UInt8) (field value : HeaderWord) :
    ∃ found, httpHeaderFindFieldValue header field.text (some value.text) = some found ∧
      (found ≠ none ↔ FirstRequested header field value) := by
  obtain ⟨line, hline, hfirst⟩ :=
    @findField_first header field (header.length + 1) 0 (Nat.zero_le _) (by omega)
  refine ⟨_, by rw [httpHeaderFindFieldValue, hline, Option.map_some], ?_⟩
  have hends (p : ℕ) : FirstFrom header (StandsAt header crlf) p (strstr header p crlf) :=
    strstr_first (by decide)
  have hvalues (p : ℕ) : FirstFrom header (StandsAt header value.text) p
      (strstr header p value.text) := strstr_first value.no_nul
  constructor
  · intro hfound
    cases line with
    | none => exact absurd rfl hfound
    | some p =>
        rw [Option.bind_some] at hfound
        have hend := hends p
        have hvalue := hvalues p
        cases hstop : strstr header p crlf with
        | none =>
            rw [hstop] at hfound
            exact absurd rfl hfound
        | some e =>
            cases hplace : strstr header p value.text with
            | none =>
                simp only [hstop, hplace, Option.bind_some, Option.bind_none] at hfound
                exact absurd rfl hfound
            | some q =>
                rw [hstop] at hend
                rw [hplace] at hvalue
                simp only [hstop, hplace, Option.bind_some] at hfound
                by_cases hbehind : e < q
                · exact absurd (if_pos hbehind) hfound
                · rw [if_neg hbehind] at hfound
                  by_cases hword : (isalnum (header.getD (q - 1) 0) ||
                      isalnum (header.getD (q + value.text.length) 0)) = true
                  · exact absurd (if_pos hword) hfound
                  · obtain ⟨hleft, hright⟩ := Bool.or_eq_false_iff.mp (Bool.not_eq_true _ ▸ hword)
                    obtain ⟨hpe, hline', hcrlf, hmiss⟩ := hend
                    obtain ⟨hpq, -, hstands, hmissed⟩ := hvalue
                    obtain ⟨-, -, hfield, hbefore⟩ := hfirst
                    obtain ⟨hstart, hnames, hunbroken⟩ := isField_iff.mp hfield
                    refine ⟨p, e, q, ⟨hstart, hpe, hcrlf, hmiss⟩, hnames,
                      ⟨hstands, hpq, value_in_line hstands hcrlf (by omega), hleft, hright⟩, ?_,
                      hmissed, hunbroken.trans hline'⟩
                    intro j hj hstartj hnamesj
                    refine hbefore j ?_ hj (isField_iff.mpr
                      ⟨hstartj, hnamesj, hunbroken.mono (Nat.le_refl 0) (by omega)⟩)
                    have := hstartj.1
                    omega
  · rintro ⟨p, e, q, hpe, hnames, htoken, hbefore, hmissed, hunbroken⟩
    have hstart := hpe.start.1
    have hlower := htoken.lower
    have hupper := htoken.upper
    have hle := hpe.le
    have hfield : line = some p := by
      refine hfirst.eq_some (by omega) (hunbroken.mono (Nat.zero_le _) hle)
        (isField_iff.mpr ⟨hpe.start, hnames, hunbroken.mono (Nat.le_refl 0) hle⟩) ?_
      intro j _ hj hisField
      obtain ⟨hstartj, hnamesj, -⟩ := isField_iff.mp hisField
      exact hbefore j hj hstartj hnamesj
    have hstop : strstr header p crlf = some e :=
      (hends p).eq_some hle (hunbroken.mono (Nat.zero_le _) (Nat.le_refl e)) hpe.stop hpe.first
    have hplace : strstr header p value.text = some q :=
      (hvalues p).eq_some hlower (hunbroken.mono (Nat.zero_le _) (by omega)) htoken.stands hmissed
    simp only [hfield, Option.bind_some, hstop, hplace, htoken.left, htoken.right, Bool.or_self]
    rw [if_neg (by omega), if_neg Bool.false_ne_true]
    exact Option.some_ne_none q

/-- What the search finds was asked for. -/
theorem FirstRequested.requested (h : FirstRequested header field value) :
    Requested header field value := by
  obtain ⟨p, e, q, hline, hnames, htoken, -⟩ := h
  exact ⟨p, e, q, hline, hnames, htoken⟩

/-- The search comes to its end with any value and with none. -/
theorem httpHeaderFindFieldValue_ends (header : List UInt8) (field : HeaderWord)
    (value : Option (List UInt8)) :
    ∃ found, httpHeaderFindFieldValue header field.text value = some found := by
  obtain ⟨line, hline, -⟩ :=
    @findField_first header field (header.length + 1) 0 (Nat.zero_le _) (by omega)
  exact ⟨_, by rw [httpHeaderFindFieldValue, hline, Option.map_some]⟩

end Search

/-! ## What is written -/

/-- What `read` gives is stored in the array. -/
theorem bytesAt_take_lt {off : ℕ} {bytes : List UInt8} {s : ℕ × UInt8}
    (hs : s ∈ bytesAt off (bytes.take (httpHeaderSize - off))) : s.1 < httpHeaderSize := by
  obtain ⟨i, hi, hplace⟩ := mem_bytesAt.mp hs
  have hlt := (List.getElem?_eq_some_iff.mp hi).1
  have := List.length_take_le (httpHeaderSize - off) bytes
  omega

/-- **The stores are in the array**, unless a complete header fills it. -/
theorem readHeader_inBounds_iff {buffer : HeaderBuffer}
    (hstores : ∀ s ∈ buffer.stores, s.1 < httpHeaderSize) (events : List ReadEvent) :
    (∀ s ∈ (readHeader buffer events).1.stores, s.1 < httpHeaderSize) ↔
      ((readHeader buffer events).2 = .complete →
        (readHeader buffer events).1.header.length < httpHeaderSize) := by
  induction events generalizing buffer with
  | nil => exact ⟨fun _ hend => HeaderEnd.noConfusion hend, fun _ => hstores⟩
  | cons event rest ih =>
      cases event with
      | failed => exact ⟨fun _ hend => HeaderEnd.noConfusion hend, fun _ => hstores⟩
      | data bytes =>
          have hread : ∀ s ∈ buffer.stores ++ bytesAt buffer.header.length
              (bytes.take (httpHeaderSize - buffer.header.length)), s.1 < httpHeaderSize := by
            intro s hs
            rcases List.mem_append.mp hs with hs | hs
            · exact hstores s hs
            · exact bytesAt_take_lt hs
          rw [readHeader]
          generalize bytes.take (httpHeaderSize - buffer.header.length) = piece at hread ⊢
          dsimp only
          by_cases hpiece : piece = []
          · rw [if_pos hpiece]
            exact ⟨fun _ hend => HeaderEnd.noConfusion hend, fun _ => hstores⟩
          · rw [if_neg hpiece]
            by_cases hends : headerEnds (buffer.header ++ piece) = true
            · rw [if_pos hends]
              constructor
              · exact fun hall _ => hall _ (List.mem_append_right _ (List.mem_singleton_self _))
              · intro hlen s hs
                rcases List.mem_append.mp hs with hs | hs
                · exact hread s hs
                · rw [List.mem_singleton.mp hs]
                  exact hlen rfl
            · rw [if_neg hends]
              by_cases hfull : (buffer.header ++ piece).length = httpHeaderSize
              · rw [if_pos hfull]
                exact ⟨fun _ hend => HeaderEnd.noConfusion hend, fun _ => hread⟩
              · rw [if_neg hfull]
                exact ih hread

/-! ## Recognised requests -/

/-- **The request is recognised exactly**: nothing is written outside of the array, and when
the header is complete the search comes to its end and finds what was asked for. -/
def RecognisedExactly (events : List ReadEvent) (field value : HeaderWord) : Prop :=
  (∀ s ∈ (readHeader emptyHeader events).1.stores, s.1 < httpHeaderSize) ∧
    ((readHeader emptyHeader events).2 = .complete →
      ∃ found, httpHeaderFindFieldValue (readHeader emptyHeader events).1.header field.text
          (some value.text) = some found ∧
        (found ≠ none ↔ Requested (readHeader emptyHeader events).1.header field value))

theorem recognisedExactly_iff (events : List ReadEvent) (field value : HeaderWord) :
    RecognisedExactly events field value ↔
      ((readHeader emptyHeader events).2 = .complete →
        (readHeader emptyHeader events).1.header.length < httpHeaderSize ∧
          (Requested (readHeader emptyHeader events).1.header field value →
            FirstRequested (readHeader emptyHeader events).1.header field value)) := by
  unfold RecognisedExactly
  rw [readHeader_inBounds_iff (List.forall_mem_nil _) events]
  obtain ⟨found, hfind, hfound⟩ :=
    httpHeaderFindFieldValue_spec (readHeader emptyHeader events).1.header field value
  constructor
  · rintro ⟨hlen, hexact⟩ hend
    refine ⟨hlen hend, fun hrequested => hfound.mp ?_⟩
    obtain ⟨found', hfind', hiff⟩ := hexact hend
    rw [Option.some.inj (hfind.symm.trans hfind')]
    exact hiff.mpr hrequested
  · intro hcond
    refine ⟨fun hend => (hcond hend).1, fun hend => ⟨found, hfind, ?_, fun hrequested => ?_⟩⟩
    · exact fun hne => (hfound.mp hne).requested
    · exact hfound.mpr ((hcond hend).2 hrequested)

/-- `Upgrade`, a field and a value. -/
def upgradeWord : HeaderWord := ⟨ascii "Upgrade", by decide, by decide, by decide⟩

def websocketWord : HeaderWord := ⟨ascii "websocket", by decide, by decide, by decide⟩

def connectionWord : HeaderWord := ⟨ascii "Connection", by decide, by decide, by decide⟩

def keyWord : HeaderWord := ⟨ascii "Sec-WebSocket-Key", by decide, by decide, by decide⟩

def protocolWord : HeaderWord := ⟨ascii "Sec-WebSocket-Protocol", by decide, by decide, by decide⟩

/-- `WEB_SOCKET_PROTO_NAME`. -/
def protoNameWord : HeaderWord := ⟨ascii "v1.verse.tul.cz", by decide, by decide, by decide⟩

/-- **A response is sent only to a request that asks for the upgrade** and for the protocol. -/
theorem httpHandshakeAccepts_requested (header : List UInt8) :
    ∃ accepted, httpHandshakeAccepts header = some accepted ∧
      (accepted = true → Requested header upgradeWord websocketWord ∧
        Requested header connectionWord upgradeWord ∧
        Requested header protocolWord protoNameWord) := by
  obtain ⟨upgrade, hupgrade, hupgradeReq⟩ :=
    httpHeaderFindFieldValue_spec header upgradeWord websocketWord
  obtain ⟨conn, hconn, hconnReq⟩ :=
    httpHeaderFindFieldValue_spec header connectionWord upgradeWord
  obtain ⟨proto, hproto, hprotoReq⟩ :=
    httpHeaderFindFieldValue_spec header protocolWord protoNameWord
  obtain ⟨key, hkey⟩ := httpHeaderFindFieldValue_ends header keyWord none
  have hrefused : ∃ accepted, some false = some accepted ∧ (accepted = true →
      Requested header upgradeWord websocketWord ∧ Requested header connectionWord upgradeWord ∧
        Requested header protocolWord protoNameWord) :=
    ⟨false, rfl, fun heq => absurd heq Bool.false_ne_true⟩
  unfold httpHandshakeAccepts
  rw [show httpHeaderFindFieldValue header (ascii "Upgrade") (some (ascii "websocket")) = _ from
    hupgrade, Option.bind_some]
  cases upgrade with
  | none => exact hrefused
  | some u =>
      rw [show httpHeaderFindFieldValue header (ascii "Connection") (some (ascii "Upgrade")) = _ from
        hconn, Option.isNone_some, if_neg Bool.false_ne_true, Option.bind_some]
      cases conn with
      | none => exact hrefused
      | some c =>
          rw [show httpHeaderFindFieldValue header (ascii "Sec-WebSocket-Key") none = _ from hkey,
            Option.isNone_some, if_neg Bool.false_ne_true, Option.bind_some]
          cases key with
          | none => exact hrefused
          | some start =>
              dsimp only
              rw [show httpHeaderFindFieldValue header (ascii "Sec-WebSocket-Protocol")
                (some (ascii "v1.verse.tul.cz")) = _ from hproto, Option.map_some]
              refine ⟨_, rfl, fun haccepted => ?_⟩
              have hsome := (Bool.and_eq_true_iff.mp haccepted).1
              exact ⟨(hupgradeReq.mp (Option.some_ne_none u)).requested,
                (hconnReq.mp (Option.some_ne_none c)).requested,
                (hprotoReq.mp (Option.isSome_iff_ne_none.mp hsome)).requested⟩

/-- The value stands in a longer word first, and then as a word of its own. -/
def longerWordFirst : List UInt8 :=
  ascii "GET" ++ crlf ++ ascii "Connection: NoUpgrade, Upgrade" ++ crlf ++ crlf

theorem not_recognisedExactly :
    ¬ ∀ (events : List ReadEvent) (field value : HeaderWord),
      RecognisedExactly events field value := by
  intro hall
  obtain ⟨-, hexact⟩ := hall [.data longerWordFirst] connectionWord upgradeWord
  have hheader : (readHeader emptyHeader [.data longerWordFirst]).1.header = longerWordFirst := by
    decide +kernel
  obtain ⟨found, hfind, hiff⟩ := hexact (by decide +kernel)
  rw [hheader] at hfind hiff
  have hmiss : httpHeaderFindFieldValue longerWordFirst connectionWord.text (some upgradeWord.text) =
      some none := by decide +kernel
  refine hiff.mpr ⟨5, 35, 28, ⟨⟨by decide, ?_⟩, by decide, ?_, ?_⟩, ?_, ⟨?_, by decide, ?_, ?_, ?_⟩⟩
    (Option.some.inj (hfind.symm.trans hmiss))
  all_goals decide +kernel

end Verse
